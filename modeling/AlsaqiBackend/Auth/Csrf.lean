import AlsaqiBackend.Lib.Utf16

/-!
# The CSRF check

`csrfMiddleware` lets a request that changes something pass when the token of its header is the one of its
cookie. `timingSafeCompare` looks at the lengths of the two texts first, which are numbers of units of UTF-16,
and then compares bytes of UTF-8 with `timingSafeEqual`, which throws for buffers of two lengths.

`csrfMiddleware_decides_iff` says for which tokens this decides whether the texts are equal.
-/

namespace AlsaqiBackend.Auth

open AlsaqiBackend.Lib

/-! ## The middleware -/

structure CsrfOptions where
  exemptPaths : List (List UInt16)
  tokenHeader : List Char
  cookieName : List Char

/-- What the middleware reads of a request; a header or a cookie can be missing. -/
structure CsrfRequest where
  method : List Char
  originalUrl : List UInt16
  headers : List Char → Option (List UInt16)
  cookies : Option (List Char → Option (List UInt16))
  correlationId : Option (List UInt16)

inductive CsrfOutcome
  | next
  | answer (status : ℕ) (code message : String) (traceId : List UInt16)
  deriving DecidableEq

/-- `crypto.timingSafeEqual`; it throws a `RangeError`. -/
def timingSafeEqual (a b : List ℕ) : Except String Bool :=
  if a.length ≠ b.length then .error "Input buffers must have the same byte length" else .ok (a = b)

def timingSafeCompare (a b : List UInt16) : Except String Bool :=
  if a.length ≠ b.length then .ok false else timingSafeEqual (bufferFrom a) (bufferFrom b)

/-- `GET`, `HEAD` and `OPTIONS` change nothing. -/
def CsrfRequest.isReadOnly (request : CsrfRequest) : Bool :=
  let method := request.method.map Char.toUpper
  method = "GET".toList || method = "HEAD".toList || method = "OPTIONS".toList

/-- The path without its query. -/
def CsrfRequest.path (request : CsrfRequest) : List UInt16 := request.originalUrl.takeWhile (· ≠ unit '?')

def CsrfRequest.isExempt (options : CsrfOptions) (request : CsrfRequest) : Bool :=
  options.exemptPaths.any (request.path = ·)

def CsrfRequest.headerToken (options : CsrfOptions) (request : CsrfRequest) : Option (List UInt16) :=
  request.headers (options.tokenHeader.map Char.toLower)

def CsrfRequest.cookieToken (options : CsrfOptions) (request : CsrfRequest) : Option (List UInt16) :=
  request.cookies.bind (· options.cookieName)

/-- A text that is there and not empty. -/
def present : Option (List UInt16) → Option (List UInt16)
  | some (u :: text) => some (u :: text)
  | _ => none

/-- The answer `403`. -/
def csrfRefusal (message : String) (request : CsrfRequest) : CsrfOutcome :=
  .answer 403 "CSRF_VALIDATION_FAILED" message ((present request.correlationId).getD (units "unknown"))

def csrfMiddleware (options : CsrfOptions) (request : CsrfRequest) : Except String CsrfOutcome :=
  if request.isReadOnly then .ok .next
  else if request.isExempt options then .ok .next
  else
    match present (request.headerToken options), present (request.cookieToken options) with
    | some headerToken, some cookieToken => do
      if !(← timingSafeCompare headerToken cookieToken) then
        return csrfRefusal "CSRF token invalid" request
      return .next
    | _, _ => .ok (csrfRefusal "CSRF token missing" request)

/-! ## Deciding equality -/

/-- The answer of a request that does not pass. -/
def CsrfOutcome.isRefusal : CsrfOutcome → Prop
  | .next => False
  | .answer status code _ _ => status = 403 ∧ code = "CSRF_VALIDATION_FAILED"

/-- Header and cookie have one token. -/
def CsrfRequest.TokensEqual (options : CsrfOptions) (request : CsrfRequest) : Prop :=
  ∃ token, token ≠ [] ∧ request.headerToken options = some token ∧ request.cookieToken options = some token

/-- The middleware returns, passes the request on exactly when the tokens are equal, and refuses it otherwise. -/
def DecidesEquality (options : CsrfOptions) (request : CsrfRequest) : Prop :=
  ∃ outcome, csrfMiddleware options request = .ok outcome ∧ (outcome = .next ↔ request.TokensEqual options) ∧
    (¬request.TokensEqual options → outcome.isRefusal)

/-- Texts of one length have equally many bytes, and are equal when their bytes are. -/
def Comparable (a b : List UInt16) : Prop :=
  a.length = b.length →
    (bufferFrom a).length = (bufferFrom b).length ∧ (toWellFormed a = toWellFormed b → a = b)

variable {options : CsrfOptions} {request : CsrfRequest} {a b : List UInt16}

theorem present_eq_some {text : Option (List UInt16)} : present text = some a ↔ text = some a ∧ a ≠ [] := by
  constructor
  · intro h
    cases text with
    | none => cases h
    | some text =>
      cases text with
      | nil => cases h
      | cons u text =>
        cases h
        exact ⟨rfl, List.cons_ne_nil u text⟩
  · rintro ⟨rfl, hne⟩
    cases a with
    | nil => exact absurd rfl hne
    | cons u text => rfl

/-- Tokens that are equal are both there. -/
theorem tokensEqual_iff (ha : present (request.headerToken options) = some a)
    (hb : present (request.cookieToken options) = some b) : request.TokensEqual options ↔ a = b := by
  obtain ⟨hheader, hne⟩ := present_eq_some.1 ha
  obtain ⟨hcookie, -⟩ := present_eq_some.1 hb
  constructor
  · rintro ⟨token, -, htoken, htoken'⟩
    rw [hheader] at htoken
    rw [hcookie] at htoken'
    rw [Option.some.inj htoken, Option.some.inj htoken']
  · rintro rfl
    exact ⟨a, hne, hheader, hcookie⟩

theorem not_tokensEqual (h : present (request.headerToken options) = none ∨
    present (request.cookieToken options) = none) : ¬request.TokensEqual options := by
  rintro ⟨token, hne, hheader, hcookie⟩
  rcases h with h | h
  · rw [present_eq_some.2 ⟨hheader, hne⟩] at h
    cases h
  · rw [present_eq_some.2 ⟨hcookie, hne⟩] at h
    cases h

/-- The comparison returns whether the texts are equal exactly when they can be compared. -/
theorem timingSafeCompare_eq_iff : timingSafeCompare a b = .ok (decide (a = b)) ↔ Comparable a b := by
  unfold timingSafeCompare timingSafeEqual Comparable
  by_cases hlength : a.length = b.length
  · rw [if_neg (not_not.2 hlength)]
    by_cases hbytes : (bufferFrom a).length = (bufferFrom b).length
    · rw [if_neg (not_not.2 hbytes), Except.ok.injEq, decide_eq_decide, bufferFrom_inj]
      exact ⟨fun h _ => ⟨hbytes, h.1⟩, fun h => ⟨(h hlength).2, fun hab => hab ▸ rfl⟩⟩
    · rw [if_pos hbytes]
      constructor
      · intro h
        cases h
      · intro h
        exact absurd (h hlength).1 hbytes
  · rw [if_pos hlength]
    have hne : a ≠ b := fun h => hlength (h ▸ rfl)
    rw [decide_eq_false hne]
    exact ⟨fun _ h => absurd h hlength, fun _ => rfl⟩

/-- The middleware with two tokens. -/
theorem csrfMiddleware_present (hmethod : request.isReadOnly = false) (hpath : request.isExempt options = false)
    (ha : present (request.headerToken options) = some a) (hb : present (request.cookieToken options) = some b) :
    csrfMiddleware options request =
      (timingSafeCompare a b).map fun equal =>
        if equal then .next else csrfRefusal "CSRF token invalid" request := by
  unfold csrfMiddleware
  simp only [hmethod, hpath, ha, hb, Bool.false_eq_true, if_false]
  cases timingSafeCompare a b with
  | error e => rfl
  | ok equal => cases equal <;> rfl

/-- The middleware without one of the tokens. -/
theorem csrfMiddleware_missing (hmethod : request.isReadOnly = false) (hpath : request.isExempt options = false)
    (h : present (request.headerToken options) = none ∨ present (request.cookieToken options) = none) :
    csrfMiddleware options request = .ok (csrfRefusal "CSRF token missing" request) := by
  unfold csrfMiddleware
  simp only [hmethod, hpath, Bool.false_eq_true, if_false]
  rcases h with h | h
  · rw [h]
  · rw [h]
    cases present (request.headerToken options) <;> rfl

theorem decidesEquality_missing (hmethod : request.isReadOnly = false) (hpath : request.isExempt options = false)
    (h : present (request.headerToken options) = none ∨ present (request.cookieToken options) = none) :
    DecidesEquality options request := by
  have hnot : ¬request.TokensEqual options := not_tokensEqual h
  refine ⟨_, csrfMiddleware_missing hmethod hpath h, ⟨fun hnext => ?_, fun heq => absurd heq hnot⟩,
    fun _ => ⟨rfl, rfl⟩⟩
  cases hnext

/-- A request that changes something, on a path that is not exempt, is decided by the equality of its tokens
exactly when they can be compared. -/
theorem csrfMiddleware_decides_iff (hmethod : request.isReadOnly = false)
    (hpath : request.isExempt options = false) :
    DecidesEquality options request ↔
      ∀ a b, present (request.headerToken options) = some a → present (request.cookieToken options) = some b →
        Comparable a b := by
  constructor
  · rintro ⟨outcome, hrun, hnext, -⟩ a b ha hb
    rw [csrfMiddleware_present hmethod hpath ha hb] at hrun
    rw [tokensEqual_iff ha hb] at hnext
    rw [← timingSafeCompare_eq_iff]
    cases hcompare : timingSafeCompare a b with
    | error e =>
      rw [hcompare] at hrun
      cases hrun
    | ok equal =>
      rw [hcompare] at hrun
      cases equal with
      | true =>
        have houtcome : CsrfOutcome.next = outcome := Except.ok.inj hrun
        rw [decide_eq_true (hnext.1 houtcome.symm)]
      | false =>
        have houtcome : csrfRefusal "CSRF token invalid" request = outcome := Except.ok.inj hrun
        have hne : a ≠ b := fun h => by
          have heq := hnext.2 h
          rw [← houtcome] at heq
          cases heq
        rw [decide_eq_false hne]
  · intro h
    cases ha : present (request.headerToken options) with
    | none => exact decidesEquality_missing hmethod hpath (.inl ha)
    | some a =>
      cases hb : present (request.cookieToken options) with
      | none => exact decidesEquality_missing hmethod hpath (.inr hb)
      | some b =>
        have hcompare := timingSafeCompare_eq_iff.2 (h a b ha hb)
        have hrun := csrfMiddleware_present hmethod hpath ha hb
        rw [hcompare] at hrun
        refine ⟨_, hrun, ?_⟩
        rw [tokensEqual_iff ha hb]
        by_cases hab : a = b
        · rw [decide_eq_true hab]
          exact ⟨⟨fun _ => hab, fun _ => rfl⟩, fun hne => absurd hab hne⟩
        · rw [decide_eq_false hab]
          exact ⟨⟨fun h => (by cases h), fun h => absurd h hab⟩, fun _ => ⟨rfl, rfl⟩⟩

/-- The options of the application, with one of its exempt paths. -/
def csrfOptions : CsrfOptions := ⟨[units "/api/auth/login"], "x-csrf-token".toList, "csrf-token".toList⟩

/-- `POST /api/tasks` with the two tokens. -/
def postTasks (headerToken cookieToken : List UInt16) : CsrfRequest :=
  { method := "POST".toList
    originalUrl := units "/api/tasks?draft=1"
    headers := fun name => if name = "x-csrf-token".toList then some headerToken else none
    cookies := some fun name => if name = "csrf-token".toList then some cookieToken else none
    correlationId := none }

theorem postTasks_decidesEquality : DecidesEquality csrfOptions (postTasks (units "4f") (units "5e")) := by
  refine (csrfMiddleware_decides_iff (by decide) (by decide)).2 fun a b ha hb => ?_
  have haeq : units "4f" = a := Option.some.inj ha
  have hbeq : units "5e" = b := Option.some.inj hb
  rw [← haeq, ← hbeq]
  exact fun _ => ⟨by decide, by decide⟩

/-- The unit of `é` has two bytes. -/
theorem postTasks_throws : ¬DecidesEquality csrfOptions (postTasks (units "é") (units "e")) := by
  rintro ⟨outcome, hrun, -⟩
  have hthrows : csrfMiddleware csrfOptions (postTasks (units "é") (units "e")) =
      .error "Input buffers must have the same byte length" := by decide
  rw [hthrows] at hrun
  cases hrun

end AlsaqiBackend.Auth
