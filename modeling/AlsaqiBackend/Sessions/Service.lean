import AlsaqiBackend.Lib.Checks
import AlsaqiBackend.Auth.Tokens
import AlsaqiBackend.Lib.Run

/-!
# The tables of the sessions, and what is done to them

A refresh token is a signed text. The tables `user_sessions` and `refresh_tokens` hold its hash, and
`SessionService.refresh` exchanges it for a new one. This module has the statements of the service and
of the logins, each as a function on the tables, and `refresh` as they stand one after the other.
`Rotation.lean` takes the statements apart again, for calls that overlap; `Revocation.lean` is about
whole calls.

`sign` stands for `jwt.sign` with the private key, and `decode` for `jwt.decode`. The text of a token is
a function of its claims, and the time of issue among them is in whole seconds; all other times are
milliseconds. A session is named by its place in the table.
-/

namespace AlsaqiBackend.Sessions

open AlsaqiBackend.Lib AlsaqiBackend.Auth

/-- A row of `refresh_tokens`. The column `token` is unique. -/
structure RefreshTokenRow where
  token : String
  userId : String
  expiresAt : ℤ
  isRevoked : Bool
  deriving DecidableEq, Repr

/-- The tables that `SessionService` and the logins use. -/
structure SessionDb where
  users : List AccountRow
  sessions : List SessionRow
  refreshTokens : List RefreshTokenRow
  deriving DecidableEq, Repr

/-! ## Hashes -/

/-- `hashRefreshToken`; it throws for a text that is not hashable. -/
def hashRefreshToken (text : String) : Except String String :=
  if !isHashableRefreshToken text then
    .error "Refresh token is absent, empty, or exceeds the maximum length"
  else .ok (sha256Hex text)

/-- `hashPresentedRefreshToken`. -/
def hashPresentedRefreshToken (text : String) : Option String :=
  if !isHashableRefreshToken text then none else (hashRefreshToken text).toOption

theorem hashRefreshToken_eq_ok {text hash : String} :
    hashRefreshToken text = .ok hash ↔ isHashableRefreshToken text = true ∧ sha256Hex text = hash := by
  unfold hashRefreshToken
  cases isHashableRefreshToken text <;> simp

theorem hashPresentedRefreshToken_eq_some {text hash : String} :
    hashPresentedRefreshToken text = some hash ↔
      isHashableRefreshToken text = true ∧ sha256Hex text = hash := by
  unfold hashPresentedRefreshToken hashRefreshToken
  cases isHashableRefreshToken text <;> simp [Except.toOption]

/-! ## Statements -/

/-- `SELECT * FROM users WHERE id = ?`. -/
def SessionDb.user (db : SessionDb) (id : String) : Option AccountRow :=
  db.users.find? fun user => user.id = id

/-- The session is Active and holds the hash: `SELECT * FROM user_sessions WHERE refresh_token = ? AND
status = 'Active'` may return it. -/
def SessionDb.holds (db : SessionDb) (hash : String) (session : ℕ) : Bool :=
  db.sessions[session]?.any fun row => row.refreshToken = hash ∧ row.status = .active

/-- What the lookup returns, when it is this session that it finds. -/
def SessionDb.lookup (db : SessionDb) (hash : String) (session : ℕ) : Option SessionRow :=
  if db.holds hash session then db.sessions[session]? else none

/-- `UPDATE user_sessions SET refresh_token = ? WHERE id = ?`. -/
def SessionDb.rotateSession (db : SessionDb) (session : ℕ) (hash : String) : SessionDb :=
  { db with sessions := db.sessions.modify session fun row => { row with refreshToken := hash } }

/-- `UPDATE refresh_tokens SET token = ?, expires_at = ? WHERE token = ?`. The statement fails when
another row has the new token, and the failure is ignored. -/
def SessionDb.rotateToken (db : SessionDb) (presentedHash newHash : String) (expiresAt : ℤ) :
    SessionDb :=
  if presentedHash ≠ newHash ∧ db.refreshTokens.any fun row => row.token = newHash then db
  else
    { db with
      refreshTokens := db.refreshTokens.map fun row =>
        if row.token = presentedHash then { row with token := newHash, expiresAt := expiresAt } else row }

/-- `INSERT INTO refresh_tokens`; it throws when a row has the token already. -/
def SessionDb.insertToken (db : SessionDb) (row : RefreshTokenRow) : Option SessionDb :=
  if db.refreshTokens.any fun other => other.token = row.token then none
  else some { db with refreshTokens := db.refreshTokens ++ [row] }

/-- `INSERT INTO user_sessions`, with the status Active. -/
def SessionDb.insertSession (db : SessionDb) (userId hash : String) : SessionDb :=
  { db with sessions := db.sessions ++ [⟨userId, hash, .active⟩] }

/-- `UPDATE user_sessions SET status = 'Terminated' WHERE …`. -/
def SessionDb.terminateWhere (db : SessionDb) (p : SessionRow → Bool) : SessionDb :=
  { db with
    sessions := db.sessions.map fun row => if p row then { row with status := .terminated } else row }

/-- `UPDATE user_sessions SET status = 'Terminated' WHERE id = ?`. -/
def SessionDb.terminateAt (db : SessionDb) (session : ℕ) : SessionDb :=
  { db with sessions := db.sessions.modify session fun row => { row with status := .terminated } }

/-- The rows that `AuthService.login` inserts, in one transaction, after it has terminated the other
sessions of the user if that is enforced; `none` when it is rolled back. -/
def SessionDb.insertLogin (db : SessionDb) (userId hash : String) (expiresAt : ℤ)
    (enforceSingleSession : Bool) : Option SessionDb :=
  let db := if enforceSingleSession then
      db.terminateWhere fun row => row.userId = userId ∧ row.status = .active
    else db
  (db.insertToken ⟨hash, userId, expiresAt, false⟩).map fun db => db.insertSession userId hash

/-- `UPDATE refresh_tokens SET is_revoked = 1 WHERE …`. -/
def SessionDb.revokeWhere (db : SessionDb) (p : RefreshTokenRow → Bool) : SessionDb :=
  { db with
    refreshTokens := db.refreshTokens.map fun row => if p row then { row with isRevoked := true } else row }

/-- `UPDATE users SET … WHERE id = ?`. -/
def SessionDb.updateUser (db : SessionDb) (id : String) (f : AccountRow → AccountRow) : SessionDb :=
  { db with users := db.users.map fun user => if user.id = id then f user else user }

/-- What `UserService.updateUser`, `setStatus` and `activateUser` set. -/
def editRow (username role status : String) (user : AccountRow) : AccountRow :=
  { user with username := username, role := role, status := status }

/-- `session_version = session_version + 1`. -/
def bumpVersion (user : AccountRow) : AccountRow :=
  { user with sessionVersion := user.sessionVersion.map (· + 1) }

/-- The rows after an `INSERT INTO refresh_tokens`. -/
theorem insertToken_eq_some {db db' : SessionDb} {row : RefreshTokenRow}
    (h : db.insertToken row = some db') :
    db' = { db with refreshTokens := db.refreshTokens ++ [row] } := by
  unfold SessionDb.insertToken at h
  split at h
  · cases h
  · exact (Option.some.inj h).symm

/-- Whether or not the row of `refresh_tokens` can be written, the other tables stay as they are. -/
theorem rotateToken_keeps (db : SessionDb) (presentedHash newHash : String) (expiresAt : ℤ) :
    (db.rotateToken presentedHash newHash expiresAt).users = db.users ∧
      (db.rotateToken presentedHash newHash expiresAt).sessions = db.sessions := by
  unfold SessionDb.rotateToken
  split <;> exact ⟨rfl, rfl⟩

/-! ## Refreshing -/

/-- How long a refresh token is recorded for: 30 days or 8 hours. -/
def refreshLifetime (rememberMe : Bool) : ℤ :=
  if rememberMe then 30 * 24 * 60 * 60 * 1000 else 8 * 60 * 60 * 1000

variable (sign : Claims → String) (decode : String → Option Claims)

/-- The checks of `refresh` on the row of the user, and whether the new token is for 30 days. -/
def checkUser (db : SessionDb) (text userId : String) : Except String (AccountRow × Bool) :=
  match db.user userId with
  | none => .error "User not found"
  | some user =>
    if user.status ≠ "Active" then .error "Session revoked"
    else if ((decode text).bind Claims.sessionVersion).any (· ≠ user.sessionVersion) then
      .error "Session revoked"
    else .ok (user, ((decode text).bind Claims.rememberMe).getD false)

/-- What `refresh` returns. -/
structure RefreshResult where
  token : String
  refreshToken : String
  user : AccountRow
  expiresAt : ℤ
  rememberMe : Bool
  deriving DecidableEq, Repr

/-- `if (!value) throw new AuthError(message)`. -/
def orThrow {α : Type} (value : Option α) (message : String) : Except String α :=
  value.elim (.error message) .ok

/-- `SessionService.refresh`, where no other statement comes between its own. `session` is the one that
the lookup returns, if it finds one: where several sessions hold the hash, any of them. The tokens are
signed at the time `now`, and the expiry is computed at the time `later`. -/
def refresh (db : SessionDb) (session : ℕ) (text : String) (now later : ℤ) :
    Except String (SessionDb × RefreshResult) := do
  let presentedHash ← orThrow (hashPresentedRefreshToken text) "Invalid session"
  let row ← orThrow (db.lookup presentedHash session) "Invalid session"
  let (user, rememberMe) ← checkUser decode db text row.userId
  let newRefreshToken := sign (refreshClaims user rememberMe (now / 1000))
  let newHash ← hashRefreshToken newRefreshToken
  let refreshExpiry := later + refreshLifetime rememberMe
  let db := db.rotateSession session newHash
  let db := db.rotateToken presentedHash newHash refreshExpiry
  pure (db, ⟨sign (accessClaims user (now / 1000)), newRefreshToken, user, refreshExpiry, rememberMe⟩)

variable {sign decode}

/-- What the checks on the row of the user come to. -/
theorem checkUser_eq_ok {db : SessionDb} {text userId : String} {user : AccountRow} {rememberMe : Bool} :
    checkUser decode db text userId = .ok (user, rememberMe) ↔
      db.user userId = some user ∧ user.status = "Active" ∧
        ((decode text).bind Claims.sessionVersion).all (· = user.sessionVersion) = true ∧
        ((decode text).bind Claims.rememberMe).getD false = rememberMe := by
  unfold checkUser
  cases db.user userId with
  | none => simp
  | some row =>
    cases (decode text).bind Claims.sessionVersion <;> by_cases hstatus : row.status = "Active" <;>
      grind

theorem orThrow_eq_ok {α : Type} {value : Option α} {message : String} {x : α} :
    orThrow value message = .ok x ↔ value = some x := by
  unfold orThrow
  cases value <;> simp

theorem lookup_eq_some {db : SessionDb} {hash : String} {session : ℕ} {row : SessionRow} :
    db.lookup hash session = some row ↔ db.sessions[session]? = some row ∧ row.refreshToken = hash ∧
      row.status = .active := by
  unfold SessionDb.lookup SessionDb.holds
  cases db.sessions[session]? with
  | none => simp
  | some row' => grind

/-- When `refresh` succeeds, and what it does then. -/
theorem refresh_eq_ok {db : SessionDb} {session : ℕ} {text : String} {now later : ℤ}
    {out : SessionDb × RefreshResult} :
    refresh sign decode db session text now later = .ok out ↔
      ∃ row user rememberMe, isHashableRefreshToken text = true ∧
        db.lookup (sha256Hex text) session = some row ∧
        checkUser decode db text row.userId = .ok (user, rememberMe) ∧
        isHashableRefreshToken (sign (refreshClaims user rememberMe (now / 1000))) = true ∧
        out = ((db.rotateSession session
              (sha256Hex (sign (refreshClaims user rememberMe (now / 1000))))).rotateToken
            (sha256Hex text) (sha256Hex (sign (refreshClaims user rememberMe (now / 1000))))
            (later + refreshLifetime rememberMe),
          ⟨sign (accessClaims user (now / 1000)), sign (refreshClaims user rememberMe (now / 1000)), user,
            later + refreshLifetime rememberMe, rememberMe⟩) := by
  unfold refresh
  simp only [bind_eq_ok, orThrow_eq_ok, hashPresentedRefreshToken_eq_some, hashRefreshToken_eq_ok,
    Prod.exists, pure, Except.pure, Except.ok.injEq]
  constructor
  · rintro ⟨hash, ⟨hhashable, rfl⟩, row, hlookup, user, rememberMe, hcheck, newHash, ⟨hnew, rfl⟩, rfl⟩
    exact ⟨row, user, rememberMe, hhashable, hlookup, hcheck, hnew, rfl⟩
  · rintro ⟨row, user, rememberMe, hhashable, hlookup, hcheck, hnew, rfl⟩
    exact ⟨_, ⟨hhashable, rfl⟩, row, hlookup, user, rememberMe, hcheck, _, ⟨hnew, rfl⟩, rfl⟩

/-! ## A user and tokens -/

/-- A text for the claims of a token. -/
def signText (c : Claims) : String := c.username ++ "." ++ toString c.iat ++ "." ++ toString c.exp

/-- The claims of the refresh token of a login of the user at a time. -/
def claimsAt (seconds : ℤ) : Claims := refreshClaims account false seconds

def decodeText (text : String) : Option Claims :=
  [claimsAt 0, claimsAt 5].find? fun c => signText c = text

end AlsaqiBackend.Sessions
