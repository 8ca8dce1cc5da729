import AlsaqiBackend.Lib.Run
import Mathlib.Algebra.Order.Group.Int

/-!
# The cache of the auth middleware

`authenticate` in `src/middleware/auth.ts` decides on a row of `users` that it reads through a cache in
Redis, and `AuthCacheInvalidator.invalidate` deletes the entries of a user. This module has both for one
user, with the operations that write the row. Everything is split where the source awaits: a call of
`authenticate` reads the cache, reads the database, writes the cache and decides in steps of their
own, and an invalidation deletes the keys that its scan returns batch by batch.

The keys of a user differ in the `session_version` of the token alone, so an entry is found under the
claim of the token. Redis can be lost and come back, with the entries that it had.

The last part of the state is a record for the proofs. Rows carry a `stamp` that grows with the writes
of the row, and `covers` says which operations count: `required` is the highest stamp of an operation
that counts and has returned, and `floor` also counts those whose invalidation has begun.
-/

namespace AlsaqiBackend.Auth

/-! ## Rows and decisions -/

/-- What `authenticate` selects of a user. -/
structure UserRow where
  id : String
  role : String
  status : String
  username : String
  name : String
  email : String
  sessionVersion : ℤ
  requiresPasswordChange : Bool
  departmentId : Option String
  deriving DecidableEq, Repr

/-- `req.user`. -/
structure RequestUser where
  id : String
  role : String
  username : String
  name : String
  email : String
  departmentId : Option String
  requiresPasswordChange : Bool
  deriving DecidableEq, Repr

/-- The only account status permitted to authenticate. -/
def ACTIVE_STATUS : String := "Active"

def isLoginBlockedStatus (status : String) : Bool := status ≠ ACTIVE_STATUS

/-- The end of `authenticate`. -/
inductive AuthDecision
  /-- 403, "Account is not active". -/
  | notActive
  /-- 401, "Session invalidated". -/
  | sessionInvalidated
  /-- `req.user` is set. -/
  | accepted (user : RequestUser)
  deriving DecidableEq, Repr

/-- The decision of `authenticate` on a row, for a token with this `session_version`, if it has one. -/
def authDecision (user : UserRow) (claim : Option ℤ) : AuthDecision :=
  if isLoginBlockedStatus user.status then .notActive
  else if some user.sessionVersion ≠ claim then .sessionInvalidated
  else .accepted ⟨user.id, user.role, user.username, user.name, user.email, user.departmentId,
    user.requiresPasswordChange⟩

/-! ## Operations on the row -/

/-- The operations that write the row of the user, through their routes. -/
inductive MutationKind
  | terminateSession
  | logoutAll
  | approveReset
  | changePassword
  | updatePassword
  | resetPassword
  /-- An update of the status and the role, followed by an invalidation. -/
  | updateUser (status role : String)
  deriving DecidableEq, Repr

/-- The operation increments `session_version`. -/
def MutationKind.bumps : MutationKind → Bool
  | .updateUser _ _ => false
  | _ => true

/-- The operation ends with `AuthCacheInvalidator.invalidate`. -/
def MutationKind.invalidates : MutationKind → Bool
  | .terminateSession | .logoutAll | .approveReset => false
  | .changePassword | .updatePassword | .resetPassword | .updateUser _ _ => true

/-- The row after the write. -/
def MutationKind.apply (user : UserRow) : MutationKind → UserRow
  | .terminateSession | .logoutAll => { user with sessionVersion := user.sessionVersion + 1 }
  | .approveReset | .resetPassword =>
    { user with requiresPasswordChange := true, sessionVersion := user.sessionVersion + 1 }
  | .changePassword | .updatePassword =>
    { user with requiresPasswordChange := false, sessionVersion := user.sessionVersion + 1 }
  | .updateUser status role => { user with status := status, role := role }

/-- Maximum number of Redis invalidation attempts before forcing a DB re-read. -/
def MAX_INVALIDATION_ATTEMPTS : ℕ := 3

/-! ## The state -/

/-- A row as it was read, after how many writes. -/
structure Read where
  row : UserRow
  revision : ℕ
  deriving DecidableEq, Repr

/-- Where a call of `authenticate` is. -/
inductive CallPhase
  /-- It waits for the cache. -/
  | reading
  /-- It waits for the database. -/
  | fetching
  /-- The database has answered. -/
  | fetched (read : Read)
  /-- It waits for the write of the cache. -/
  | writing (read : Read)
  /-- `getCachedOrDb` has its result. -/
  | deciding (read : Read)
  | finished
  deriving DecidableEq, Repr

/-- A call of `authenticate`: the `session_version` of its token, whether it bypasses the cache, and
what was required of the row when it began. -/
structure Call where
  claim : Option ℤ
  forceFresh : Bool
  since : ℤ
  phase : CallPhase
  deriving DecidableEq, Repr

/-- Where an operation is. `level` is the stamp of the row that it wrote. -/
inductive MutationPhase
  | begun
  | updated (level : ℤ)
  /-- An attempt to delete the keys, with those that were there from its beginning and that the scan
  has not returned yet. -/
  | scanning (attempt : ℕ) (level : ℤ) (unseen : List (Option ℤ))
  | returned
  deriving DecidableEq, Repr

structure Mutation where
  kind : MutationKind
  phase : MutationPhase
  deriving DecidableEq, Repr

/-- A call that has decided on a row. -/
structure Decided where
  claim : Option ℤ
  since : ℤ
  read : Read
  deriving DecidableEq, Repr

/-- What it has decided. -/
def Decided.decision (d : Decided) : AuthDecision := authDecision d.read.row d.claim

/-- What there is of a user: the row, the entries in Redis, the flag in `forceReadUserIds`, the calls
and the operations under way, and the record for the proofs. -/
structure AuthState where
  user : UserRow
  revision : ℕ
  redisAvailable : Bool
  cache : List (Option ℤ × Read)
  forceRead : Bool
  calls : List Call
  mutations : List Mutation
  required : ℤ
  floor : ℤ
  log : List Decided
  deriving DecidableEq, Repr

/-- The row in the database. -/
def AuthState.current (s : AuthState) : Read := ⟨s.user, s.revision⟩

/-- The phase without some keys, which have left the cache. -/
def MutationPhase.without (keys : List (Option ℤ)) : MutationPhase → MutationPhase
  | .scanning attempt level unseen => .scanning attempt level (unseen.filter (· ∉ keys))
  | phase => phase

/-- Keys leave the cache: they are deleted, or they expire. -/
def AuthState.drop (s : AuthState) (keys : List (Option ℤ)) : AuthState :=
  { s with
    cache := s.cache.filter (·.1 ∉ keys)
    mutations := s.mutations.map fun m => { m with phase := m.phase.without keys } }

/-- `SET` of an entry. -/
def AuthState.put (s : AuthState) (claim : Option ℤ) (read : Read) : AuthState :=
  { s with cache := s.cache.filter (·.1 ≠ claim) ++ [(claim, read)] }

/-- `GET` of an entry. -/
def AuthState.lookup (s : AuthState) (claim : Option ℤ) : Option Read :=
  (s.cache.find? (·.1 = claim)).map Prod.snd

def AuthState.setCall (s : AuthState) (i : ℕ) (call : Call) : AuthState :=
  { s with calls := s.calls.set i call }

def AuthState.setMutation (s : AuthState) (j : ℕ) (m : Mutation) : AuthState :=
  { s with mutations := s.mutations.set j m }

/-- What can happen. -/
inductive AuthAction
  /-- A call of `authenticate` begins, up to its first await. -/
  | start (claim : Option ℤ)
  /-- The cache answers a call, or fails. -/
  | get (i : ℕ) (ok : Bool)
  /-- The database answers a call. -/
  | fetch (i : ℕ)
  /-- The database fails, and the call is denied with 503. -/
  | fetchFail (i : ℕ)
  /-- A call goes on behind the database. -/
  | resume (i : ℕ)
  /-- The cache is written, or fails. -/
  | set (i : ℕ) (ok : Bool)
  /-- A call decides. -/
  | decide (i : ℕ)
  /-- An entry expires. -/
  | expire (claim : Option ℤ)
  /-- Redis is lost. -/
  | disconnect
  /-- Redis is back. -/
  | connect
  /-- An operation on the row begins. -/
  | begin (kind : MutationKind)
  /-- An operation writes the row. -/
  | update (j : ℕ)
  /-- An operation that does not invalidate returns. -/
  | finish (j : ℕ)
  /-- An operation calls `invalidate`. -/
  | invalidate (j : ℕ)
  /-- Keys that a scan has returned are deleted. -/
  | del (j : ℕ) (keys : List (Option ℤ))
  /-- A scan is back at the cursor 0, and the invalidation returns. -/
  | scanDone (j : ℕ)
  /-- A `SCAN` or `DEL` fails. -/
  | fail (j : ℕ)
  deriving DecidableEq, Repr

/-! ## Steps -/

variable (stamp : Read → ℤ) (covers : MutationKind → Bool)

/-- The user at the start, with an empty cache. -/
def AuthState.start (user : UserRow) : AuthState where
  user := user
  revision := 0
  redisAvailable := true
  cache := []
  forceRead := false
  calls := []
  mutations := []
  required := stamp ⟨user, 0⟩
  floor := stamp ⟨user, 0⟩
  log := []

/-- The operation returns. -/
def AuthState.return (s : AuthState) (j : ℕ) (kind : MutationKind) (level : ℤ) : AuthState :=
  { s.setMutation j ⟨kind, .returned⟩ with
    required := if covers kind then max s.required level else s.required
    floor := if covers kind then max s.floor level else s.floor }

/-- An attempt of `invalidate` begins. Without Redis it counts as a success. -/
def AuthState.attempt (s : AuthState) (j : ℕ) (kind : MutationKind) (n : ℕ) (level : ℤ) : AuthState :=
  if s.redisAvailable then
    { s.setMutation j ⟨kind, .scanning n level (s.cache.map Prod.fst)⟩ with
      floor := if covers kind then max s.floor level else s.floor }
  else { s.return covers j kind level with forceRead := false }

/-- The step of a call of `authenticate`. -/
def callStep (s : AuthState) (i : ℕ) (call : Call) : AuthAction → Option AuthState
  | .get _ ok =>
    match call.phase with
    | .reading =>
      some (match if ok && s.redisAvailable then s.lookup call.claim else none with
        | some read => s.setCall i { call with phase := .deciding read }
        | none => s.setCall i { call with phase := .fetching })
    | _ => none
  | .fetch _ =>
    match call.phase with
    | .fetching => some (s.setCall i { call with phase := .fetched s.current })
    | _ => none
  | .fetchFail _ =>
    match call.phase with
    | .fetching => some (s.setCall i { call with phase := .finished })
    | _ => none
  | .resume _ =>
    match call.phase with
    | .fetched read =>
      some (s.setCall i { call with
        phase := if s.redisAvailable then .writing read else .deciding read })
    | _ => none
  | .set _ ok =>
    match call.phase with
    | .writing read =>
      some ((if ok then s.put call.claim read else s).setCall i { call with phase := .deciding read })
    | _ => none
  | .decide _ =>
    match call.phase with
    | .deciding read =>
      some
        { s.setCall i { call with phase := .finished } with
          -- A successful authoritative read clears any forced-re-read flag.
          forceRead := s.forceRead && !call.forceFresh
          log := s.log ++ [⟨call.claim, call.since, read⟩] }
    | _ => none
  | _ => none

/-- The step of an operation on the row. -/
def mutationStep (s : AuthState) (j : ℕ) (m : Mutation) : AuthAction → Option AuthState
  | .update _ =>
    match m.phase with
    | .begun =>
      let s := { s with user := m.kind.apply s.user, revision := s.revision + 1 }
      some (s.setMutation j ⟨m.kind, .updated (stamp s.current)⟩)
    | _ => none
  | .finish _ =>
    match m.phase with
    | .updated level => if m.kind.invalidates then none else some (s.return covers j m.kind level)
    | _ => none
  | .invalidate _ =>
    match m.phase with
    | .updated level => if m.kind.invalidates then some (s.attempt covers j m.kind 1 level) else none
    | _ => none
  | .del _ keys =>
    match m.phase with
    | .scanning _ _ _ => if s.redisAvailable then some (s.drop keys) else none
    | _ => none
  | .scanDone _ =>
    match m.phase with
    | .scanning _ level unseen =>
      -- A scan returns every key that is there from its beginning to its end.
      if unseen = [] then some { s.return covers j m.kind level with forceRead := false } else none
    | _ => none
  | .fail _ =>
    match m.phase with
    | .scanning n level _ =>
      some (if n < MAX_INVALIDATION_ATTEMPTS then s.attempt covers j m.kind (n + 1) level
        else { s.return covers j m.kind level with forceRead := true })
    | _ => none
  | _ => none

/-- One step. -/
def authStep (s : AuthState) (a : AuthAction) : Option AuthState :=
  match a with
  | .start claim =>
    some { s with
            calls := s.calls ++ [⟨claim, s.forceRead, s.required,
              if !s.forceRead && s.redisAvailable then .reading else .fetching⟩] }
  | .get i _ | .fetch i | .fetchFail i | .resume i | .set i _ | .decide i =>
    s.calls[i]?.bind fun call => callStep s i call a
  | .expire claim => some (s.drop [claim])
  | .disconnect => some { s with redisAvailable := false }
  | .connect => some { s with redisAvailable := true }
  | .begin kind => some { s with mutations := s.mutations ++ [⟨kind, .begun⟩] }
  | .update j | .finish j | .invalidate j | .del j _ | .scanDone j | .fail j =>
    s.mutations[j]?.bind fun m => mutationStep stamp covers s j m a

end AlsaqiBackend.Auth
