import AlsaqiBackend.Idempotency.Effective

/-!
# The middleware in the router

`createV1Router` mounts the idempotency middleware as the first layer of the router, and each route
brings its own `authenticate`, which is what sets `req.user`. The middleware needs the user for the
scope of a record, finds none, and calls `next()`. So no request is ever scoped, and the handler is
executed for every one of them: `v1Router_exactlyOnce_iff`.

The requests of this module do not overlap: each comes when the one before it is answered, its record
stored, and its mark removed.
-/

namespace AlsaqiBackend.Idempotency

open AlsaqiBackend.Lib

/-- A layer on the way of a request to the handler of its route. -/
inductive Layer
  /-- The middleware of `createIdempotencyMiddleware`. -/
  | idempotency
  /-- `authenticate`, for a client that it accepts. -/
  | authenticate
  /-- A layer that calls `next()` and does not touch `req.user`: a router that does not match, or a
  check that the client passes. -/
  | pass
  deriving DecidableEq, Repr

/-- Where the layers lead to. -/
inductive Arrival
  /-- The middleware has answered. -/
  | answered (response : Response)
  /-- The handler is executed. With a scope, `res.json` stores the response. -/
  | handler (capture : Option Scope)

/-- The body of the answer to an invalid key. -/
def invalidKeyBody : JsonValue :=
  .object [("code", .string "INVALID_IDEMPOTENCY_KEY"),
    ("message", .string "X-Idempotency-Key must be between 1 and 256 characters")]

/-- The way of a request of the user `userId` through the layers. -/
def throughLayers (options : IdempotencyOptions) (table : List IdempotencyRow) (userId : String)
    (now : ℤ) : List Layer → Incoming → Option Scope → Arrival
  | [], _, capture => .handler capture
  | .pass :: layers, req, capture => throughLayers options table userId now layers req capture
  | .authenticate :: layers, req, capture =>
    throughLayers options table userId now layers { req with userId := some userId } capture
  | .idempotency :: layers, req, capture =>
    match admission options req with
    | .next => throughLayers options table userId now layers req capture
    | .invalidKey => .answered ⟨400, invalidKeyBody⟩
    | .scoped scope =>
      match serve table scope now with
      | .replayed response => .answered response
      | .executed => throughLayers options table userId now layers req (some scope)

/-- The table, what the handler gave to `res.json` at each of its executions, and the answers of the
requests. -/
structure RouterState where
  table : List IdempotencyRow
  executions : List Response
  answers : List Response

/-- A request goes through the layers. If its handler is executed, it gives `answer` to `res.json`. -/
def RouterState.handle (options : IdempotencyOptions) (layers : List Layer) (userId : String)
    (req : Incoming) (s : RouterState) (answer : Response) (now : ℤ) : RouterState :=
  match throughLayers options s.table userId now layers req none with
  | .answered response => { s with answers := s.answers ++ [response] }
  | .handler capture =>
    { table := match capture with
        | some scope => record s.table scope answer.redacted options.ttl now
        | none => s.table
      executions := s.executions ++ [answer]
      answers := s.answers ++ [answer] }

/-- Repetitions of a request, one after another: what the handler would answer, and the time. -/
def RouterState.handleAll (options : IdempotencyOptions) (layers : List Layer) (userId : String)
    (req : Incoming) : RouterState → List (Response × ℤ) → RouterState
  | s, [] => s
  | s, (answer, now) :: repetitions =>
    handleAll options layers userId req (s.handle options layers userId req answer now) repetitions

/-- The layers of a route that requires authentication, below those of the router. -/
structure AuthenticatedRoute where
  layers : List Layer
  authenticates : .authenticate ∈ layers
  not_idempotent : .idempotency ∉ layers

/-- The layers of `createV1Router` before the handler of a route. -/
def v1Layers (route : AuthenticatedRoute) : List Layer := .idempotency :: route.layers

/-- A request as it comes to the router: with a valid key, and `req.user` not set. -/
structure KeyedRequest where
  method : String
  key : String
  originalUrl : String
  path : String
  method_keyed : upperMethod method = "POST" ∨ upperMethod method = "PUT"
  key_valid : 1 ≤ utf16Length key ∧ utf16Length key ≤ 256

/-- What the middleware reads of the request. -/
def KeyedRequest.incoming (req : KeyedRequest) : Incoming :=
  ⟨req.method, some req.key, none, req.originalUrl, req.path⟩

/-- The handler was executed once, and all answers but the first are the redacted first one. -/
def ExactlyOnce (s : RouterState) : Prop :=
  ∃ first later, s.executions = [first] ∧ s.answers = first :: later ∧
    ∀ answer ∈ later, answer = first.redacted

/-- Without a user there is no scope. -/
theorem admission_eq_next (options : IdempotencyOptions) (req : KeyedRequest) :
    admission options req.incoming = .next := by
  obtain ⟨hlow, hhigh⟩ := req.key_valid
  have hvalid : ¬ (utf16Length req.key = 0 ∨ utf16Length req.key > 256) := by omega
  unfold admission KeyedRequest.incoming
  simp only [if_neg hvalid, ite_self]

/-- Layers without the middleware lead to the handler as it is. -/
theorem throughLayers_handler (options : IdempotencyOptions) (table : List IdempotencyRow)
    (userId : String) (now : ℤ) {layers : List Layer} (h : .idempotency ∉ layers) (req : Incoming)
    (capture : Option Scope) :
    throughLayers options table userId now layers req capture = .handler capture := by
  induction layers generalizing req with
  | nil => rfl
  | cons layer layers ih =>
    rw [List.mem_cons, not_or] at h
    cases layer with
    | idempotency => exact absurd rfl h.1
    | authenticate => exact ih h.2 _
    | pass => exact ih h.2 _

/-- The router executes the handler for every request, and stores nothing. -/
theorem handle_v1Layers (options : IdempotencyOptions) (route : AuthenticatedRoute) (userId : String)
    (req : KeyedRequest) (s : RouterState) (answer : Response) (now : ℤ) :
    s.handle options (v1Layers route) userId req.incoming answer now =
      { s with executions := s.executions ++ [answer], answers := s.answers ++ [answer] } := by
  have hway : throughLayers options s.table userId now (v1Layers route) req.incoming none =
      .handler none := by
    unfold v1Layers throughLayers
    rw [admission_eq_next]
    exact throughLayers_handler options s.table userId now route.not_idempotent _ _
  unfold RouterState.handle
  rw [hway]

/-- So it is for any number of repetitions. -/
theorem handleAll_v1Layers (options : IdempotencyOptions) (route : AuthenticatedRoute)
    (userId : String) (req : KeyedRequest) (s : RouterState) (repetitions : List (Response × ℤ)) :
    s.handleAll options (v1Layers route) userId req.incoming repetitions =
      { s with
        executions := s.executions ++ repetitions.map Prod.fst
        answers := s.answers ++ repetitions.map Prod.fst } := by
  induction repetitions generalizing s with
  | nil => simp [RouterState.handleAll]
  | cons q repetitions ih =>
    unfold RouterState.handleAll
    rw [handle_v1Layers, ih]
    simp

/-- Behind `createV1Router` the handler is executed once, with the later answers taken from the first,
exactly when there is one request: for every route, user, table and repetitions. -/
theorem v1Router_exactlyOnce_iff (options : IdempotencyOptions) (route : AuthenticatedRoute)
    (userId : String) (req : KeyedRequest) (table : List IdempotencyRow)
    (repetitions : List (Response × ℤ)) :
    ExactlyOnce (RouterState.handleAll options (v1Layers route) userId req.incoming ⟨table, [], []⟩
      repetitions) ↔ repetitions.length = 1 := by
  rw [handleAll_v1Layers]
  unfold ExactlyOnce
  simp only [List.nil_append]
  constructor
  · rintro ⟨first, later, hexecutions, -, -⟩
    have hlength := congrArg List.length hexecutions
    simpa using hlength
  · intro hlength
    obtain ⟨q, rfl⟩ := List.length_eq_one_iff.1 hlength
    exact ⟨q.1, [], rfl, rfl, fun answer hanswer => absurd hanswer List.not_mem_nil⟩

/-- A route of the audit findings: the routers before it do not match, then come `authenticate` and
the check of the permission. -/
def findingsRoute : AuthenticatedRoute := ⟨[.pass, .authenticate, .pass], by decide, by decide⟩

/-- A finding is posted with a key. -/
def postFinding : KeyedRequest :=
  ⟨"POST", "retry-1", "/api/v1/audit-findings", "/audit-findings", by decide, by decide⟩

/-- A client repeats the request a second later: the handler is executed a second time. -/
theorem repeated_request_executed_twice :
    let s := RouterState.handleAll {} (v1Layers findingsRoute) "user-1" postFinding.incoming ⟨[], [], []⟩
      [(⟨201, .string "finding 1"⟩, 0), (⟨201, .string "finding 2"⟩, 1000000)]
    s.executions.length = 2 ∧ ¬ ExactlyOnce s := by
  refine ⟨rfl, ?_⟩
  rintro ⟨first, later, hexecutions, -, -⟩
  have hlength : 2 = 1 := congrArg List.length hexecutions
  exact absurd hlength (by decide)

end AlsaqiBackend.Idempotency
