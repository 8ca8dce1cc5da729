import AlsaqiBackend.Lib.PgTransaction
import AlsaqiBackend.Sessions.Service
import AlsaqiBackend.Users.Identity

/-!
# The optional steps of a login

`AuthService.login` runs in one transaction. Some of its statements are optional: it catches their
errors and carries on. But PostgreSQL does not, and the statements after the one that failed fail as well.

`login_commits_iff` says when a login with the right password returns tokens and the row of its refresh
token is committed: exactly when no optional statement that it comes to fails, and the hash of the
refresh token is one that can be inserted. What follows a login with a wrong password is in
`Lockout.lean`.

`compare` stands for `bcrypt.compare`, and `effectivePermissions` for the query of
`PermissionService.getEffectivePermissions`.
-/

namespace AlsaqiBackend.Login

open AlsaqiBackend.Lib AlsaqiBackend.Auth AlsaqiBackend.Sessions AlsaqiBackend.Users TxM

/-! ## Tables -/

/-- The row of `user_management_settings`. -/
structure SettingsRow where
  enforceSingleSession : Option ℤ
  twoFactorAuth : Option ℤ
  passwordExpiryDays : Option ℤ
  deriving DecidableEq, Repr

structure LoginHistoryRow where
  userId : String
  ipAddress : String
  userAgent : String
  status : String
  deriving DecidableEq, Repr

/-- The tables that a login reads and writes. -/
structure LoginDb where
  users : List UserRecord
  settings : Option SettingsRow
  sessions : List SessionRow
  refreshTokens : List RefreshTokenRow
  loginHistory : List LoginHistoryRow
  deriving DecidableEq, Repr

namespace LoginDb

/-- `UPDATE users SET … WHERE id = ?`. -/
def updateUser (db : LoginDb) (id : String) (f : UserRecord → UserRecord) : LoginDb :=
  { db with users := db.users.map fun user => if user.id = id then f user else user }

/-- `UPDATE user_sessions SET status = 'Terminated' WHERE user_id = ? AND status = 'Active'`. -/
def terminateSessions (db : LoginDb) (userId : String) : LoginDb :=
  { db with sessions := db.sessions.map fun row =>
      if row.userId = userId ∧ row.status = .active then { row with status := .terminated } else row }

/-- `INSERT INTO refresh_tokens`, where the column `token` is unique. -/
def insertToken (db : LoginDb) (row : RefreshTokenRow) : Option LoginDb :=
  if db.refreshTokens.any fun other => other.token = row.token then none
  else some { db with refreshTokens := db.refreshTokens ++ [row] }

end LoginDb

/-! ## The steps of a login -/

structure LoginRequest where
  usernameOrEmail : String
  password : String
  ipAddress : Option String
  userAgent : Option String
  rememberMe : Bool
  deriving DecidableEq, Repr

/-- The readings of the clock, in milliseconds. -/
structure LoginTimes where
  lockCheck : ℤ
  lastLogin : ℤ
  expiryCheck : ℤ
  token : ℤ
  refreshToken : ℤ
  refreshExpiry : ℤ
  deriving DecidableEq, Repr

/-- The statements whose errors are caught. -/
inductive OptionalStatement
  | readPolicy
  | terminateSessions
  | readExpiry
  | updateExpiry
  | insertHistory
  | insertSession
  deriving DecidableEq, Repr

/-- What a login returns. -/
structure LoginResult where
  user : UserRecord
  requiresPasswordChange : Bool
  requires2faSetup : Bool
  permissions : List (String × String)
  token : String
  refreshToken : String
  deriving DecidableEq, Repr

/-- A value of an `INTEGER` column that counts as true. -/
def truthy (value : Option ℤ) : Bool := value.any (· ≠ 0)

/-- `value || 'Unknown'`. -/
def orUnknown (value : Option String) : String := (orNull value).getD "Unknown"

/-- `DUMMY_HASH`. -/
def dummyHash : String := "$2b$12$tFOk2VHwkUPOwX2V5S/yAuRFtaGaRcRzviyDgTNRdKyMX7dpwSwtm"

/-- The password has expired. -/
def passwordExpired (settings : Option SettingsRow) (lastChanged now : ℤ) : Bool :=
  let passwordExpiryDays := settings.bind SettingsRow.passwordExpiryDays
  let expiryDays := if truthy passwordExpiryDays then passwordExpiryDays.getD 90 else 90
  0 < expiryDays && expiryDays ≤ (now - lastChanged) / (1000 * 60 * 60 * 24)

variable (lower : String → String) (compare : String → String → Bool) (sign : Claims → String)
  (effectivePermissions : LoginDb → String → List (String × String))

/-- The user is found, and the password is right. -/
def verifyUser (request : LoginRequest) (times : LoginTimes) : TxM LoginDb UserRecord := do
  let found ← statement false fun db => some (db, lookupUser lower db.users request.usernameOrEmail)
  -- The comparison is made for a user who is not found as well, with a hash that nothing matches.
  let passwordMatches := compare request.password (found.elim dummyHash UserRecord.password)
  match found with
  | none => throw "Invalid credentials"
  | some user =>
    if user.status ≠ "Active" then throw "Invalid credentials"
    else if user.lockedUntil.any (times.lockCheck < ·) then throw "Invalid credentials"
    else if !passwordMatches then throw "Invalid credentials"
    else pure user

variable (fails : OptionalStatement → Bool)

/-- The password is marked as expired. An error of the update is caught after the result is set. -/
def requirePasswordChange (user : UserRecord) : TxM LoginDb Bool := do
  attempt (statement (fails .updateExpiry) fun db =>
    some (db.updateUser user.id fun user => { user with requiresPasswordChange := true }, ())) ()
  pure true

/-- The check of the password's age. -/
def checkPasswordExpiry (user : UserRecord) (times : LoginTimes) : TxM LoginDb Bool :=
  if user.requiresPasswordChange then pure true
  else
    match user.passwordLastChanged with
    | none => pure false
    | some lastChanged => do
      let settings ← attempt (statement (fails .readExpiry) fun db => some (db, some db.settings)) none
      if settings.any fun settings => passwordExpired settings lastChanged times.expiryCheck then
        requirePasswordChange fails user
      else pure false

/-- The other active sessions, where only one is allowed. -/
def enforceSingleSession (user : UserRecord) (policySettings : Option SettingsRow) :
    TxM LoginDb Unit :=
  if policySettings.any fun policy => truthy policy.enforceSingleSession then
    attempt (statement (fails .terminateSessions) fun db => some (db.terminateSessions user.id, ())) ()
  else pure ()

/-- The tokens and their rows. -/
def issueTokens (request : LoginRequest) (times : LoginTimes) (user : UserRecord)
    (requiresPasswordChange requires2faSetup : Bool) : TxM LoginDb LoginResult := do
  let token := sign (accessClaims user.toAccountRow (times.token / 1000))
  let refreshToken := sign (refreshClaims user.toAccountRow request.rememberMe (times.refreshToken / 1000))
  match hashRefreshToken refreshToken with
  | .error e => throw e
  | .ok refreshTokenHash => do
    let row := ⟨refreshTokenHash, user.id, times.refreshExpiry + refreshLifetime request.rememberMe, false⟩
    statement false fun db => (db.insertToken row).map (·, ())
    attempt (statement (fails .insertSession) fun db =>
      some ({ db with sessions := db.sessions ++ [⟨user.id, refreshTokenHash, .active⟩] }, ())) ()
    let permissions ← attempt (statement false fun db => some (db, effectivePermissions db user.id)) []
    pure ⟨user, requiresPasswordChange, requires2faSetup, permissions, token, refreshToken⟩

/-- The login of a user whose password is right. -/
def openSession (request : LoginRequest) (times : LoginTimes) (user : UserRecord) :
    TxM LoginDb LoginResult := do
  statement false fun db => some (db.updateUser user.id fun user =>
    { user with failedAttempts := 0, lockedUntil := none, lastLogin := some times.lastLogin }, ())
  let policySettings ← attempt (statement (fails .readPolicy) fun db => some (db, db.settings)) none
  enforceSingleSession fails user policySettings
  let requires2faSetup :=
    user.requires2faSetup || policySettings.any fun policy => truthy policy.twoFactorAuth
  let requiresPasswordChange ← checkPasswordExpiry fails user times
  attempt (statement (fails .insertHistory) fun db =>
    some ({ db with loginHistory := db.loginHistory ++
      [⟨user.id, orUnknown request.ipAddress, orUnknown request.userAgent, "Success"⟩] }, ())) ()
  issueTokens sign effectivePermissions fails request times user requiresPasswordChange requires2faSetup

/-- The body of the transaction of `AuthService.login`. -/
def login (request : LoginRequest) (times : LoginTimes) : TxM LoginDb LoginResult := do
  let user ← verifyUser lower compare request times
  openSession sign effectivePermissions fails request times user

/-! ## The optional statements that a login comes to -/

/-- Where only one session is allowed. -/
def singleSessionSteps (settings : Option SettingsRow) : List OptionalStatement :=
  if settings.any fun policy => truthy policy.enforceSingleSession then [.terminateSessions] else []

/-- Where the age of the password is checked. -/
def expirySteps (settings : Option SettingsRow) (user : UserRecord) (now : ℤ) : List OptionalStatement :=
  if user.requiresPasswordChange then []
  else
    match user.passwordLastChanged with
    | none => []
    | some lastChanged =>
      .readExpiry :: if passwordExpired settings lastChanged now then [.updateExpiry] else []

/-- All of them. -/
def optionalSteps (settings : Option SettingsRow) (user : UserRecord) (now : ℤ) : List OptionalStatement :=
  .readPolicy :: (singleSessionSteps settings ++ (expirySteps settings user now ++
    [.insertHistory, .insertSession]))

/-- The password of the user is found to have expired. -/
def foundExpired (settings : Option SettingsRow) (user : UserRecord) (now : ℤ) : Bool :=
  !user.requiresPasswordChange && user.passwordLastChanged.any fun lastChanged =>
    passwordExpired settings lastChanged now

variable {sign effectivePermissions fails} {user : UserRecord} {request : LoginRequest}
  {times : LoginTimes} {tx tx' : Tx LoginDb} {db : LoginDb}

theorem enforceSingleSession_stays {policySettings : Option SettingsRow} :
    StaysAborted (enforceSingleSession fails user policySettings) := by
  unfold enforceSingleSession
  split
  · exact (StaysAborted.statement _ _).attempt
  · exact .pure

theorem enforceSingleSession_endsWell {policySettings : Option SettingsRow} :
    EndsWell (enforceSingleSession fails user policySettings) tx () tx' ↔
      tx.aborted = false ∧ (∀ step ∈ singleSessionSteps policySettings, fails step = false) ∧
        tx' = ⟨{ tx.db with
          sessions := if policySettings.any fun policy => truthy policy.enforceSingleSession then
            (tx.db.terminateSessions user.id).sessions else tx.db.sessions }, false⟩ := by
  unfold enforceSingleSession singleSessionSteps
  split_ifs
  · rw [endsWell_attempt_statement, List.forall_mem_singleton]
    simp only [true_and]
    exact Iff.rfl
  · rw [endsWell_pure]
    exact and_congr_right fun _ => ⟨fun h => ⟨nofun, h.2⟩, fun h => ⟨rfl, h.2⟩⟩

theorem requirePasswordChange_stays : StaysAborted (requirePasswordChange fails user) :=
  (StaysAborted.statement _ _).attempt.bind fun _ => .pure

theorem requirePasswordChange_endsWell {requires : Bool} :
    EndsWell (requirePasswordChange fails user) tx requires tx' ↔
      tx.aborted = false ∧ fails .updateExpiry = false ∧ requires = true ∧
        tx' = ⟨tx.db.updateUser user.id fun user => { user with requiresPasswordChange := true },
          false⟩ := by
  unfold requirePasswordChange
  rw [endsWell_attempt_bind fun _ => .pure, endsWell_pure]
  simp only [true_and]

theorem checkPasswordExpiry_stays : StaysAborted (checkPasswordExpiry fails user times) := by
  unfold checkPasswordExpiry
  split
  · exact .pure
  · split
    · exact .pure
    · refine (StaysAborted.statement _ _).attempt.bind fun settings => ?_
      split
      · exact requirePasswordChange_stays
      · exact .pure

theorem checkPasswordExpiry_endsWell {requires : Bool} :
    EndsWell (checkPasswordExpiry fails user times) tx requires tx' ↔
      tx.aborted = false ∧
        (∀ step ∈ expirySteps tx.db.settings user times.expiryCheck, fails step = false) ∧
        requires = (user.requiresPasswordChange || foundExpired tx.db.settings user times.expiryCheck) ∧
        tx' = ⟨{ tx.db with
          users := if foundExpired tx.db.settings user times.expiryCheck then
            (tx.db.updateUser user.id fun user => { user with requiresPasswordChange := true }).users
            else tx.db.users }, false⟩ := by
  unfold checkPasswordExpiry expirySteps foundExpired
  cases user.requiresPasswordChange with
  | true =>
    rw [if_pos rfl, if_pos rfl, endsWell_pure]
    simp
  | false =>
    rw [if_neg Bool.false_ne_true, if_neg Bool.false_ne_true]
    cases user.passwordLastChanged with
    | none =>
      rw [endsWell_pure]
      simp
    | some lastChanged =>
      dsimp only
      rw [endsWell_attempt_bind fun settings => by
        split
        · exact requirePasswordChange_stays
        · exact .pure]
      refine and_congr_right fun _ => ?_
      rw [Option.any_some, List.forall_mem_cons]
      cases hexpired : passwordExpired tx.db.settings lastChanged times.expiryCheck with
      | true =>
        rw [if_pos rfl, if_pos rfl, requirePasswordChange_endsWell, List.forall_mem_singleton]
        have hfound : (!false && (some lastChanged).any fun lastChanged =>
            passwordExpired tx.db.settings lastChanged times.expiryCheck) = true := hexpired
        rw [hfound, if_pos rfl]
        constructor
        · rintro ⟨hread, -, hupdate, hrequires, htx'⟩
          exact ⟨⟨hread, hupdate⟩, hrequires, htx'⟩
        · rintro ⟨⟨hread, hupdate⟩, hrequires, htx'⟩
          exact ⟨hread, rfl, hupdate, hrequires, htx'⟩
      | false =>
        rw [if_neg Bool.false_ne_true, if_neg Bool.false_ne_true, endsWell_pure]
        simp [hexpired]

theorem issueTokens_stays {requiresPasswordChange requires2faSetup : Bool} :
    StaysAborted (issueTokens sign effectivePermissions fails request times user requiresPasswordChange
      requires2faSetup) := by
  unfold issueTokens
  dsimp only
  split
  · exact .throw _
  · exact (StaysAborted.statement _ _).bind fun _ => (StaysAborted.statement _ _).attempt.bind fun _ =>
      (StaysAborted.statement _ _).attempt.bind fun _ => .pure

/-- The refresh token of a login. -/
def refreshTokenText (sign : Claims → String) (request : LoginRequest) (times : LoginTimes)
    (user : UserRecord) : String :=
  sign (refreshClaims user.toAccountRow request.rememberMe (times.refreshToken / 1000))

/-- The row of the refresh token that a login inserts. -/
def tokenRow (sign : Claims → String) (request : LoginRequest) (times : LoginTimes) (user : UserRecord) :
    RefreshTokenRow :=
  ⟨sha256Hex (refreshTokenText sign request times user), user.id,
    times.refreshExpiry + refreshLifetime request.rememberMe, false⟩

theorem insertToken_eq_some {row : RefreshTokenRow} {db db' : LoginDb} :
    db.insertToken row = some db' ↔ (∀ other ∈ db.refreshTokens, other.token ≠ row.token) ∧
      db' = { db with refreshTokens := db.refreshTokens ++ [row] } := by
  have hany : (db.refreshTokens.any fun other => other.token = row.token) = true ↔
      ¬ ∀ other ∈ db.refreshTokens, other.token ≠ row.token := by
    rw [List.any_eq_true]
    push Not
    simp only [decide_eq_true_eq]
  unfold LoginDb.insertToken
  split_ifs with hunique
  · exact ⟨nofun, fun h => absurd h.1 (hany.1 hunique)⟩
  · rw [Option.some.injEq, eq_comm]
    exact ⟨fun h => ⟨not_not.1 (hany.not.1 hunique), h⟩, And.right⟩

/-- The tables with the rows of a login. -/
def LoginDb.withLogin (db : LoginDb) (row : RefreshTokenRow) : LoginDb :=
  { db with
    refreshTokens := db.refreshTokens ++ [row]
    sessions := db.sessions ++ [⟨row.userId, row.token, .active⟩] }

/-- The hash of a text can be inserted as a refresh token. -/
def Insertable (db : LoginDb) (text : String) : Prop :=
  isHashableRefreshToken text = true ∧ ∀ row ∈ db.refreshTokens, row.token ≠ sha256Hex text

theorem issueTokens_endsWell {requiresPasswordChange requires2faSetup : Bool} {result : LoginResult} :
    EndsWell (issueTokens sign effectivePermissions fails request times user requiresPasswordChange
      requires2faSetup) tx result tx' ↔
      tx.aborted = false ∧ Insertable tx.db (refreshTokenText sign request times user) ∧
        fails .insertSession = false ∧
        result = ⟨user, requiresPasswordChange, requires2faSetup,
          effectivePermissions (tx.db.withLogin (tokenRow sign request times user)) user.id,
          sign (accessClaims user.toAccountRow (times.token / 1000)),
          refreshTokenText sign request times user⟩ ∧
        tx' = ⟨tx.db.withLogin (tokenRow sign request times user), false⟩ := by
  unfold issueTokens Insertable
  dsimp only
  by_cases hhashable : isHashableRefreshToken (refreshTokenText sign request times user) = true
  · have hhash := hashRefreshToken_eq_ok.2 ⟨hhashable, rfl⟩
    unfold refreshTokenText at hhash
    rw [hhash]
    dsimp only
    rw [endsWell_statement_bind]
    refine and_congr_right fun _ => ?_
    constructor
    · rintro ⟨-, db, _, hinsert, hrest⟩
      obtain ⟨db', hdb', heq⟩ := Option.map_eq_some_iff.1 hinsert
      obtain ⟨hunique, rfl⟩ := insertToken_eq_some.1 hdb'
      rw [Prod.mk.injEq] at heq
      obtain ⟨rfl, -⟩ := heq
      rw [endsWell_attempt_bind fun _ => (StaysAborted.statement _ _).attempt.bind fun _ => .pure,
        endsWell_attempt_bind fun _ => .pure, endsWell_pure] at hrest
      obtain ⟨-, hfails, -, -, -, hresult, htx'⟩ := hrest
      exact ⟨⟨hhashable, hunique⟩, hfails, hresult, htx'⟩
    · rintro ⟨⟨-, hunique⟩, hfails, hresult, htx'⟩
      refine ⟨rfl, _, (), Option.map_eq_some_iff.2 ⟨_, insertToken_eq_some.2 ⟨hunique, rfl⟩, rfl⟩, ?_⟩
      rw [endsWell_attempt_bind fun _ => (StaysAborted.statement _ _).attempt.bind fun _ => .pure,
        endsWell_attempt_bind fun _ => .pure, endsWell_pure]
      exact ⟨rfl, hfails, rfl, rfl, rfl, hresult, htx'⟩
  · have hthrows : hashRefreshToken (refreshTokenText sign request times user) =
        .error "Refresh token is absent, empty, or exceeds the maximum length" := by
      unfold hashRefreshToken
      rw [Bool.eq_false_iff.2 hhashable]
      rfl
    unfold refreshTokenText at hthrows
    rw [hthrows]
    exact ⟨fun h => absurd h not_endsWell_throw, fun h => absurd h.2.1.1 hhashable⟩

theorem forall_optionalSteps {settings : Option SettingsRow} {now : ℤ} :
    (∀ step ∈ optionalSteps settings user now, fails step = false) ↔
      fails .readPolicy = false ∧ (∀ step ∈ singleSessionSteps settings, fails step = false) ∧
        (∀ step ∈ expirySteps settings user now, fails step = false) ∧ fails .insertHistory = false ∧
          fails .insertSession = false := by
  unfold optionalSteps
  rw [List.forall_mem_cons, List.forall_mem_append, List.forall_mem_append, List.forall_mem_cons,
    List.forall_mem_singleton]

section Rest

variable {requires2faSetup : Bool} {g : LoginDb → Option (LoginDb × Unit)}

theorem afterExpiry_stays {requiresPasswordChange : Bool} :
    StaysAborted (attempt (statement (fails .insertHistory) g) () >>= fun _ =>
      issueTokens sign effectivePermissions fails request times user requiresPasswordChange
        requires2faSetup) :=
  (StaysAborted.statement _ _).attempt.bind fun _ => issueTokens_stays

theorem afterSingleSession_stays :
    StaysAborted (checkPasswordExpiry fails user times >>= fun requiresPasswordChange =>
      attempt (statement (fails .insertHistory) g) () >>= fun _ =>
        issueTokens sign effectivePermissions fails request times user requiresPasswordChange
          requires2faSetup) :=
  checkPasswordExpiry_stays.bind fun _ => afterExpiry_stays

end Rest

theorem afterPolicy_stays {policySettings : Option SettingsRow} {requires2faSetup : Bool}
    {g : LoginDb → Option (LoginDb × Unit)} :
    StaysAborted (enforceSingleSession fails user policySettings >>= fun _ =>
      checkPasswordExpiry fails user times >>= fun requiresPasswordChange =>
        attempt (statement (fails .insertHistory) g) () >>= fun _ =>
          issueTokens sign effectivePermissions fails request times user requiresPasswordChange
            requires2faSetup) :=
  enforceSingleSession_stays.bind fun _ => afterSingleSession_stays

/-- A login that ends well has come to no statement that fails, and has inserted its row. -/
theorem openSession_spec {result : LoginResult}
    (h : EndsWell (openSession sign effectivePermissions fails request times user) ⟨db, false⟩ result
      tx') :
    (∀ step ∈ optionalSteps db.settings user times.expiryCheck, fails step = false) ∧
      Insertable db (refreshTokenText sign request times user) ∧
      result.refreshToken = refreshTokenText sign request times user ∧
      tx'.db.refreshTokens = db.refreshTokens ++ [tokenRow sign request times user] := by
  -- Each statement is taken off the block in turn; the settings and the tokens stay as they were.
  unfold openSession at h
  rw [endsWell_total_bind, endsWell_attempt_bind fun _ => afterPolicy_stays] at h
  obtain ⟨-, -, -, hpolicy, h⟩ := h
  rw [endsWell_bind fun _ => afterSingleSession_stays] at h
  obtain ⟨_, _, henforce, h⟩ := h
  obtain ⟨-, hsingle, rfl⟩ := enforceSingleSession_endsWell.1 henforce
  rw [endsWell_bind fun _ => afterExpiry_stays] at h
  obtain ⟨_, _, hcheck, h⟩ := h
  obtain ⟨-, hexpiry, rfl, rfl⟩ := checkPasswordExpiry_endsWell.1 hcheck
  rw [endsWell_attempt_bind fun _ => issueTokens_stays, issueTokens_endsWell] at h
  obtain ⟨-, hhistory, -, hinsertable, hsession, rfl, rfl⟩ := h
  refine ⟨forall_optionalSteps.2 ⟨hpolicy, hsingle, hexpiry, hhistory, hsession⟩, hinsertable, rfl, rfl⟩

/-- A login that comes to no statement that fails, and can insert its row, ends well. -/
theorem openSession_exists
    (hsteps : ∀ step ∈ optionalSteps db.settings user times.expiryCheck, fails step = false)
    (hinsertable : Insertable db (refreshTokenText sign request times user)) :
    ∃ result tx', EndsWell (openSession sign effectivePermissions fails request times user) ⟨db, false⟩
      result tx' := by
  obtain ⟨hpolicy, hsingle, hexpiry, hhistory, hsession⟩ := forall_optionalSteps.1 hsteps
  unfold openSession
  refine EndsWell.bind (endsWell_statement.2 ⟨rfl, rfl, _, rfl, rfl⟩) ?_
  refine EndsWell.bind (endsWell_attempt_statement.2 ⟨rfl, hpolicy, rfl, rfl⟩) ?_
  refine EndsWell.bind (enforceSingleSession_endsWell.2 ⟨rfl, hsingle, rfl⟩) ?_
  refine EndsWell.bind (checkPasswordExpiry_endsWell.2 ⟨rfl, hexpiry, rfl, rfl⟩) ?_
  refine EndsWell.bind (endsWell_attempt_statement.2 ⟨rfl, hhistory, rfl, rfl⟩) ?_
  exact ⟨_, _, issueTokens_endsWell.2 ⟨rfl, hinsertable, hsession, rfl, rfl⟩⟩

/-! ## Tokens that are returned and recorded -/

variable (sign effectivePermissions fails)

/-- The login returns tokens, and the row of the refresh token that it returns is committed. -/
def LoginCommits (request : LoginRequest) (times : LoginTimes) (db : LoginDb) (user : UserRecord) : Prop :=
  ∃ result, (transaction (login lower compare sign effectivePermissions fails request times) db).1 =
    .ok result ∧
      (transaction (login lower compare sign effectivePermissions fails request times) db).2.refreshTokens =
        db.refreshTokens ++ [⟨sha256Hex result.refreshToken, user.id,
          times.refreshExpiry + refreshLifetime request.rememberMe, false⟩]

variable {sign effectivePermissions fails lower compare}

/-- A user with the right password passes the checks. -/
theorem verifyUser_apply (hfound : lookupUser lower db.users request.usernameOrEmail = some user)
    (hpassword : compare request.password user.password = true) (hactive : user.status = "Active")
    (hunlocked : user.lockedUntil.all (· ≤ times.lockCheck) = true) :
    verifyUser lower compare request times ⟨db, false⟩ = (.ok user, ⟨db, false⟩) := by
  have hfree : user.lockedUntil.any (times.lockCheck < ·) = false := by
    cases hlock : user.lockedUntil with
    | none => rfl
    | some lockedUntil =>
      rw [hlock, Option.all_some, decide_eq_true_eq] at hunlocked
      rw [Option.any_some, decide_eq_false_iff_not]
      omega
  unfold verifyUser
  rw [bind_apply]
  simp only [statement, Bool.false_eq_true, if_false, hfound, hactive, ne_eq, not_true_eq_false, hfree,
    Option.elim_some, hpassword, Bool.not_true]
  rfl

/-- For an active user with the right password, who is not locked, a login returns tokens and records the
refresh token exactly when no optional statement that it comes to fails, and the refresh token can be
inserted. -/
theorem login_commits_iff (hfound : lookupUser lower db.users request.usernameOrEmail = some user)
    (hpassword : compare request.password user.password = true) (hactive : user.status = "Active")
    (hunlocked : user.lockedUntil.all (· ≤ times.lockCheck) = true) :
    LoginCommits lower compare sign effectivePermissions fails request times db user ↔
      (∀ step ∈ optionalSteps db.settings user times.expiryCheck, fails step = false) ∧
        Insertable db (refreshTokenText sign request times user) := by
  have hlogin : ∀ result tx', EndsWell (login lower compare sign effectivePermissions fails request times)
      ⟨db, false⟩ result tx' ↔
        EndsWell (openSession sign effectivePermissions fails request times user) ⟨db, false⟩ result
          tx' := by
    intro result tx'
    unfold EndsWell login
    rw [bind_apply, verifyUser_apply hfound hpassword hactive hunlocked]
  unfold LoginCommits
  constructor
  · rintro ⟨result, -, hrow⟩
    by_cases hends : ∃ result tx', EndsWell
      (login lower compare sign effectivePermissions fails request times) ⟨db, false⟩ result tx'
    · obtain ⟨result', tx', hends⟩ := hends
      obtain ⟨hsteps, hinsertable, -⟩ := openSession_spec ((hlogin result' tx').1 hends)
      exact ⟨hsteps, hinsertable⟩
    · -- Nothing is committed, and so there is no new row.
      rw [transaction_of_not_endsWell fun a tx' h => hends ⟨a, tx', h⟩] at hrow
      have hlength := congrArg List.length hrow
      rw [List.length_append, List.length_singleton] at hlength
      omega
  · rintro ⟨hsteps, hinsertable⟩
    obtain ⟨result, tx', hends⟩ := openSession_exists hsteps hinsertable
    obtain ⟨-, -, htoken, hrows⟩ := openSession_spec hends
    rw [transaction_of_endsWell ((hlogin result tx').2 hends)]
    refine ⟨result, rfl, hrows.trans ?_⟩
    rw [htoken]
    rfl

/-- An active user who has logged in before. -/
def activeUser : UserRecord :=
  ⟨⟨"user-1", "user", "Auditor", "Active", some 1⟩, "hash of password", "Name", some "user@example.com", none,
    false, false, none, 0, none, none⟩

/-- The tables, without tokens. -/
def oneUser : LoginDb := ⟨[activeUser], none, [], [], []⟩

/-- A login of the user with the right password. -/
def rightPassword : LoginRequest := ⟨"USER", "password", none, none, false⟩

/-- A password stands for its hash in this way. -/
def hashMatches (password hash : String) : Bool := hash = "hash of " ++ password

/-- The login at the time 0, where some of the optional statements fail. -/
def loginAtZero (fails : OptionalStatement → Bool) : Except String LoginResult × LoginDb :=
  transaction (login lowerAscii hashMatches signText (fun _ _ => []) fails rightPassword ⟨0, 0, 0, 0, 0, 0⟩)
    oneUser

/-- When nothing fails, tokens are returned and recorded. -/
theorem login_commits_without_failure :
    LoginCommits lowerAscii hashMatches signText (fun _ _ => []) (fun _ => false) rightPassword
      ⟨0, 0, 0, 0, 0, 0⟩ oneUser activeUser :=
  (login_commits_iff (by decide +kernel) (by decide +kernel) rfl rfl).2
    ⟨fun _ _ => rfl, by decide +kernel, nofun⟩

/-- When the login history cannot be written, the login fails. When the session cannot be written, it
returns tokens, and nothing is committed. -/
theorem optional_failure_breaks_login :
    (loginAtZero (· = .insertHistory)).1 =
        .error "current transaction is aborted, commands ignored until end of transaction block" ∧
      ¬ LoginCommits lowerAscii hashMatches signText (fun _ _ => []) (· = .insertHistory) rightPassword
        ⟨0, 0, 0, 0, 0, 0⟩ oneUser activeUser ∧
      (∃ result, (loginAtZero (· = .insertSession)).1 = .ok result) ∧
      (loginAtZero (· = .insertSession)).2 = oneUser ∧
      ¬ LoginCommits lowerAscii hashMatches signText (fun _ _ => []) (· = .insertSession) rightPassword
        ⟨0, 0, 0, 0, 0, 0⟩ oneUser activeUser := by
  have herror : (loginAtZero (· = .insertHistory)).1 =
      .error "current transaction is aborted, commands ignored until end of transaction block" := by
    decide +kernel
  have hsame : (loginAtZero (· = .insertSession)).2 = oneUser := by decide +kernel
  refine ⟨herror, ?_, ?_, hsame, ?_⟩
  · rintro ⟨result, hok, -⟩
    cases herror.symm.trans hok
  · exact ⟨_, rfl⟩
  · rintro ⟨result, -, hrow⟩
    have hlength := congrArg List.length ((congrArg LoginDb.refreshTokens hsame).symm.trans hrow)
    rw [List.length_append, List.length_singleton] at hlength
    cases hlength

end AlsaqiBackend.Login
