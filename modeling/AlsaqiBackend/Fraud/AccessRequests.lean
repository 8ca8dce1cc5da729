import AlsaqiBackend.Cron.Deadlines
import AlsaqiBackend.Lib.JsString

/-!
# Requests for access to the fraud log

A user asks for access to the fraud log, and a manager approves the request for a number of days or rejects
it (`FraudService` and the routes of `fraud.ts`). Each of the three operations is a `SELECT` and, in a later
statement, an `INSERT` or an `UPDATE`, so that calls of other requests come in between. An approval goes to the
database as the text of `toISOString`, which the column `expires_at`, a timestamp without a time zone, keeps
without its `Z`; `getMyStatus` compares it with the current time, in the time zone of the session.
-/

namespace AlsaqiBackend.Fraud

open AlsaqiBackend.Lib AlsaqiBackend.Cron

variable {K : Type}

/-! ## Rows -/

inductive RequestStatus where
  | pending
  | approved
  | rejected
deriving DecidableEq, Repr

/-- A row of `fraud_access_requests`. A timestamp without a time zone is given by the time at which a clock that
shows UTC shows it. -/
structure AccessRequest (K : Type) where
  id : K
  userId : K
  userName : String
  reason : String
  status : RequestStatus
  requestDate : ℤ
  responseDate : Option ℤ
  respondedBy : Option K
  rejectionReason : Option String
  expiresAt : Option ℤ

/-- What a decision was, with the expiry that an approval computed. -/
inductive Outcome where
  | approved (expiresAt : Option ℤ)
  | rejected
deriving DecidableEq, Repr

/-- The decision that a row shows. -/
def AccessRequest.outcome (r : AccessRequest K) : Option Outcome :=
  match r.status with
  | .pending => none
  | .approved => some (.approved r.expiresAt)
  | .rejected => some .rejected

/-- The row that the `INSERT` of `createRequest` adds, with the defaults of the table. -/
def newRequest (id userId : K) (userName reason : String) (now : ℤ) : AccessRequest K :=
  ⟨id, userId, userName, reason, .pending, now, none, none, none, none⟩

/-- The `UPDATE` of `approveRequest`; `response_date` has no time zone either. -/
def AccessRequest.approve (session : LocalClock) (now : ℤ) (responderId : K) (expiresAt : Option ℤ)
    (r : AccessRequest K) : AccessRequest K :=
  { r with
    status := .approved
    responseDate := some (now + session.offset now)
    respondedBy := some responderId
    expiresAt := expiresAt }

/-- The `UPDATE` of `rejectRequest`. -/
def AccessRequest.reject (session : LocalClock) (now : ℤ) (responderId : K) (reason : String)
    (r : AccessRequest K) : AccessRequest K :=
  { r with
    status := .rejected
    rejectionReason := some reason
    responseDate := some (now + session.offset now)
    respondedBy := some responderId }

/-! ## The checks of the routes -/

/-- `z.string().min(5).max(1000)`, of `fraudRequestSchema` and `fraudRejectSchema`. -/
def validReason (reason : String) : Bool := 5 ≤ utf16Length reason && utf16Length reason ≤ 1000

/-- `z.coerce.number().int().positive().max(365)`, of an integer. -/
def fraudApproveSchema (duration : ℤ) : Bool := 0 < duration && duration ≤ 365

/-! ## FraudService -/

section queries

variable [DecidableEq K]

/-- `SELECT * FROM fraud_access_requests WHERE user_id = ? AND status = 'Pending'`. -/
def existingRequest (rows : List (AccessRequest K)) (userId : K) : Option (AccessRequest K) :=
  rows.find? fun r => r.userId = userId && r.status = .pending

/-- `SELECT * FROM fraud_access_requests WHERE id = ?`. -/
def requestById (rows : List (AccessRequest K)) (id : K) : Option (AccessRequest K) :=
  rows.find? fun r => r.id = id

/-- The expiry that `approveRequest` computes at the time `now`. -/
def approvalExpiry (server : LocalClock) (now duration : ℤ) : Option ℤ :=
  if duration = 0 then none else some (server.addDate now duration)

/-- `expires_at IS NULL OR expires_at > CURRENT_TIMESTAMP`, in a session that takes the timestamp for one of its
own time zone. -/
def readsUnexpired (session : LocalClock) (now : ℤ) (r : AccessRequest K) : Bool :=
  r.expiresAt.all fun expiresAt => now < session.toUtc expiresAt

/-- `SELECT * FROM fraud_access_requests WHERE user_id = ? ORDER BY request_date DESC LIMIT 1`. -/
def latestRequest (rows : List (AccessRequest K)) (userId : K) : Option (AccessRequest K) :=
  ((rows.filter fun r => r.userId = userId).mergeSort fun r r' => r'.requestDate ≤ r.requestDate).head?

/-- What `getMyStatus` returns: the status, which is missing for `'None'`, and the request it is about. -/
structure MyStatus (K : Type) where
  status : Option RequestStatus
  request : Option (AccessRequest K)

/-- `getMyStatus`, whose second query may find other rows than its first. -/
def getMyStatus (session : LocalClock) (now : ℤ) (rows later : List (AccessRequest K)) (userId : K) :
    MyStatus K :=
  match rows.find? fun r => r.userId = userId && r.status = .approved && readsUnexpired session now r with
  | some approved => ⟨some .approved, some approved⟩
  | none =>
    match latestRequest later userId with
    -- An approval that the first query has not found has expired.
    | some latest => if latest.status = .approved then ⟨none, none⟩ else ⟨some latest.status, some latest⟩
    | none => ⟨none, none⟩

/-- `getMyStatus` reports an approval exactly when its first query finds one. -/
theorem getMyStatus_approved_iff {session : LocalClock} {now : ℤ} {rows later : List (AccessRequest K)}
    {userId : K} : (getMyStatus session now rows later userId).status = some .approved ↔
      ∃ r ∈ rows, r.userId = userId ∧ r.status = .approved ∧ readsUnexpired session now r = true := by
  unfold getMyStatus
  split
  · next approved hfound =>
    have hspec := List.find?_some hfound
    simp only [Bool.and_eq_true, decide_eq_true_eq, and_assoc] at hspec
    exact iff_of_true rfl ⟨approved, List.mem_of_find?_eq_some hfound, hspec⟩
  · next hnone =>
    refine iff_of_false ?_ ?_
    · split
      · split_ifs with happroved
        · exact not_false
        · exact fun heq => happroved (Option.some.inj heq)
      · exact (Option.some_ne_none _).symm
    · intro ⟨r, hr, hspec⟩
      have hnot := List.find?_eq_none.1 hnone r hr
      simp only [Bool.and_eq_true, decide_eq_true_eq, and_assoc] at hnot
      exact hnot hspec

end queries

/-! ## Calls under way -/

/-- A call whose first statement has been executed, and what it does next. -/
inductive Call (K : Type) where
  /-- The `INSERT` of `createRequest`. -/
  | creating (userId : K) (userName reason : String)
  /-- The expiry of `approveRequest`, from the current time. -/
  | approving (id : K) (duration : ℤ) (responderId : K)
  /-- Its `UPDATE`. -/
  | granting (id : K) (expiresAt : Option ℤ) (responderId : K)
  /-- The `UPDATE` of `rejectRequest`. -/
  | rejecting (id : K) (reason : String) (responderId : K)
  | finished

/-- An `UPDATE` that decided a request. -/
structure Decision (K : Type) where
  requestId : K
  userId : K
  outcome : Outcome

/-- The table, the calls under way, the time, and the decisions so far, with the latest first. -/
structure FraudState (K : Type) where
  table : Keyed (@AccessRequest.id K)
  calls : List (Call K)
  now : ℤ
  decisions : List (Decision K)

/-- A request begins with its first statement; then its call takes one step after the other. -/
inductive FraudAction (K : Type) where
  | createRequest (userId : K) (userName reason : String)
  | approveRequest (id : K) (duration : ℤ) (responderId : K)
  | rejectRequest (id : K) (reason : String) (responderId : K)
  /-- The next step of a call; an `INSERT` generates the id. -/
  | proceed (i : ℕ) (newId : K)
  | wait (ms : ℕ)

namespace FraudState

def rows (s : FraudState K) : List (AccessRequest K) := s.table.rows

def begin (s : FraudState K) (call : Call K) : FraudState K := { s with calls := s.calls ++ [call] }

def setCall (s : FraudState K) (i : ℕ) (call : Call K) : FraudState K := { s with calls := s.calls.set i call }

/-- An `INSERT`. -/
def insert (s : FraudState K) (r : AccessRequest K) (hfree : r.id ∉ s.rows.map AccessRequest.id) :
    FraudState K :=
  { s with table := s.table.insert r hfree }

variable [DecidableEq K]

/-- An `UPDATE` of a request, with the decision that it is. -/
def decideRequest (s : FraudState K) (id : K) (outcome : Outcome) (f : AccessRequest K → AccessRequest K)
    (hkey : ∀ r, (f r).id = r.id) : FraudState K :=
  { s with
    table := s.table.update (fun r => r.id = id) f hkey
    decisions := ((s.rows.filter fun r => r.id = id).map fun r => ⟨id, r.userId, outcome⟩) ++ s.decisions }

/-- The `UPDATE` of `approveRequest`. -/
def grant (s : FraudState K) (session : LocalClock) (id : K) (expiresAt : Option ℤ) (responderId : K) :
    FraudState K :=
  s.decideRequest id (.approved expiresAt) (.approve session s.now responderId expiresAt) fun _ => rfl

/-- The `UPDATE` of `rejectRequest`. -/
def refuse (s : FraudState K) (session : LocalClock) (id : K) (reason : String) (responderId : K) :
    FraudState K :=
  s.decideRequest id .rejected (.reject session s.now responderId reason) fun _ => rfl

/-- The next step of a call. -/
def proceed (server session : LocalClock) (s : FraudState K) (i : ℕ) (newId : K) : Call K → Option (FraudState K)
  | .creating userId userName reason =>
    -- The statement does not look again for a pending request of the user.
    if hfree : newId ∉ s.rows.map AccessRequest.id then
      some ((s.insert (newRequest newId userId userName reason s.now) hfree).setCall i .finished)
    else none
  | .approving id duration responderId =>
    some (s.setCall i (.granting id (approvalExpiry server s.now duration) responderId))
  -- Neither `UPDATE` asks for the status that its request has by now.
  | .granting id expiresAt responderId => some ((s.grant session id expiresAt responderId).setCall i .finished)
  | .rejecting id reason responderId => some ((s.refuse session id reason responderId).setCall i .finished)
  | .finished => none

/-- One step. A request that its route or its `SELECT` refuses changes nothing. -/
def step (server session : LocalClock) (s : FraudState K) : FraudAction K → Option (FraudState K)
  | .createRequest userId userName reason =>
    if validReason reason && (existingRequest s.rows userId).isNone then
      some (s.begin (.creating userId userName reason))
    else some s
  | .approveRequest id duration responderId =>
    if fraudApproveSchema duration && (requestById s.rows id).isSome then
      some (s.begin (.approving id duration responderId))
    else some s
  | .rejectRequest id reason responderId =>
    if validReason reason && (requestById s.rows id).isSome then
      some (s.begin (.rejecting id reason responderId))
    else some s
  | .proceed i newId => (s.calls[i]?).bind (proceed server session s i newId)
  | .wait ms => some { s with now := s.now + ms }

end FraudState

end AlsaqiBackend.Fraud
