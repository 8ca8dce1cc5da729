import AlsaqiBackend.Lib.Modify
import AlsaqiBackend.Sessions.Service

/-!
# What a refresh token is good for

Logins issue refresh tokens, `refresh` exchanges them, and logouts and changes of passwords revoke them.
Each of these operations writes its own part of the tables: the status of sessions, the version of a
user, a mark in `refresh_tokens`. `issued` keeps, for every token, the session that it was issued for,
and whether that session or its user has been revoked since.

`refresh_live_iff` says when `refresh` keeps to live tokens. It never takes one that was not issued, or
that has been revoked, or whose user is not active. It does not look at the expiry, neither the one in
the token, which is only decoded, nor the one in `refresh_tokens`.
-/

namespace AlsaqiBackend.Sessions

open AlsaqiBackend.Lib AlsaqiBackend.Auth

/-! ## Operations -/

/-- A refresh token that has been issued. -/
structure Credential where
  claims : Claims
  /-- The session that it was issued for; `none` when the row could not be inserted. -/
  session : Option ℕ
  /-- The session or its user has been revoked since. -/
  revoked : Bool
  deriving DecidableEq, Repr

structure RevocationState where
  db : SessionDb
  issued : List Credential
  deriving DecidableEq, Repr

def RevocationState.init : RevocationState := ⟨⟨[], [], []⟩, []⟩

inductive RevocationAction
  /-- `UserService.createUser`. -/
  | createUser (id username role : String)
  /-- `UserService.updateUser` without a password, `setStatus` and `activateUser`. -/
  | editUser (id username role status : String)
  /-- `AuthService.login` of a user with the right password. -/
  | login (userId : String) (rememberMe enforceSingleSession : Bool) (now : ℤ)
  /-- `issueFullTokens`; the failure of the second insertion is ignored. -/
  | issueFullTokens (userId : String) (sessionInserted : Bool) (now : ℤ)
  | refresh (session : ℕ) (text : String) (now later : ℤ)
  | logout (text : String)
  | logoutAll (userId : String)
  | terminateSession (session : ℕ)
  /-- `approveReset`, `changePassword` and `updatePassword` of `PasswordService`, and
  `UserService.resetPassword`. -/
  | changePassword (userId : String)
  /-- `UserService.updateUser` with a password, which leaves the sessions as they are. -/
  | updateUserPassword (id username role status : String)
  deriving DecidableEq, Repr

namespace RevocationState

/-- The tokens that satisfy `p` are revoked. -/
def revoke (s : RevocationState) (db : SessionDb) (p : Credential → Bool) : RevocationState :=
  ⟨db, s.issued.map fun cred => if p cred then { cred with revoked := true } else cred⟩

def issue (s : RevocationState) (db : SessionDb) (claims : Claims) (session : Option ℕ) :
    RevocationState :=
  ⟨db, s.issued ++ [⟨claims, session, false⟩]⟩

end RevocationState

variable (sign : Claims → String) (decode : String → Option Claims)

/-- The text that is signed for the claims decodes to them, and its hash can be taken. -/
def signs (claims : Claims) : Bool :=
  isHashableRefreshToken (sign claims) && decode (sign claims) = some claims

/-- One operation; `none` when it throws. -/
def revocationStep (s : RevocationState) : RevocationAction → Option RevocationState
  | .createUser id username role =>
    if (s.db.user id).isSome then none
    else some { s with db.users := s.db.users ++ [⟨id, username, role, "Active", some 1⟩] }
  | .editUser id username role status =>
    some { s with db := s.db.updateUser id (editRow username role status) }
  | .login userId rememberMe enforceSingleSession now =>
    (s.db.user userId).bind fun user =>
      let claims := refreshClaims user rememberMe (now / 1000)
      if isLoginBlockedStatus user.status || !signs sign decode claims then none
      else
        (s.db.insertLogin userId (sha256Hex (sign claims)) (now + refreshLifetime rememberMe)
          enforceSingleSession).map fun db => s.issue db claims (some s.db.sessions.length)
  | .issueFullTokens userId sessionInserted now =>
    (s.db.user userId).bind fun user =>
      let claims := refreshClaims user false (now / 1000)
      if !signs sign decode claims then none
      else
        (s.db.insertToken ⟨sha256Hex (sign claims), userId, now + refreshLifetime false, false⟩).map
          fun db =>
            if sessionInserted then
              s.issue (db.insertSession userId (sha256Hex (sign claims))) claims
                (some s.db.sessions.length)
            else s.issue db claims none
  | .refresh session text now later =>
    match refresh sign decode s.db session text now later with
    | .error _ => none
    | .ok (db, result) =>
      let claims := refreshClaims result.user result.rememberMe (now / 1000)
      if !signs sign decode claims then none else some (s.issue db claims (some session))
  | .logout text =>
    (hashPresentedRefreshToken text).map fun hash =>
      s.revoke
        ((s.db.revokeWhere fun row => row.token = hash).terminateWhere fun row => row.refreshToken = hash)
        fun cred => cred.session.any fun session =>
          s.db.sessions[session]?.any fun row => row.refreshToken = hash
  | .logoutAll userId =>
    some (s.revoke
      ((s.db.terminateWhere fun row => row.userId = userId ∧ row.status = .active).updateUser userId
        bumpVersion)
      fun cred => cred.claims.id = userId)
  | .terminateSession session =>
    some (s.revoke
      (match s.db.sessions[session]? with
        | some row => (s.db.terminateAt session).updateUser row.userId bumpVersion
        | none => s.db)
      fun cred => cred.session = some session)
  | .changePassword userId =>
    some (s.revoke
      (((s.db.updateUser userId bumpVersion).revokeWhere fun row => row.userId = userId).terminateWhere
        fun row => row.userId = userId ∧ row.status = .active)
      fun cred => cred.claims.id = userId)
  | .updateUserPassword id username role status =>
    some (s.revoke
      (s.db.updateUser id fun user => bumpVersion (editRow username role status user))
      fun cred => cred.claims.id = id)

/-! ## Users and their versions -/

/-- The version that a row has, and the one that a token carries. -/
def rowVersion (user : AccountRow) : ℤ := user.sessionVersion.getD 0

def claimsVersion (claims : Claims) : ℤ := (claims.sessionVersion.bind id).getD 0

variable {db : SessionDb}

/-- The row of a user after an update that keeps the ids. -/
theorem user_updateUser {f : AccountRow → AccountRow} (hf : ∀ user, (f user).id = user.id)
    (id id' : String) :
    (db.updateUser id f).user id' =
      (db.user id').map fun user => if user.id = id then f user else user := by
  unfold SessionDb.user SessionDb.updateUser
  rw [List.find?_map]
  congr 2
  funext user
  rw [Function.comp_apply]
  split
  · rw [hf]
  · rfl

theorem id_of_user {id : String} {user : AccountRow} (h : db.user id = some user) : user.id = id :=
  (of_find?_key h).2

/-- Every row of the users has a version. -/
def Versioned (db : SessionDb) : Prop := ∀ user ∈ db.users, user.sessionVersion.isSome = true

theorem rowVersion_bumpVersion {user : AccountRow} (h : user.sessionVersion.isSome = true) :
    rowVersion (bumpVersion user) = rowVersion user + 1 := by
  obtain ⟨v, hv⟩ := Option.isSome_iff_exists.1 h
  simp [rowVersion, bumpVersion, hv]

/-! ## The invariant -/

/-- The user of the claims is there, and has not had a lower version since. -/
def VersionLe (db : SessionDb) (claims : Claims) : Prop :=
  ∃ user, db.user claims.id = some user ∧ claimsVersion claims ≤ rowVersion user

/-- The version of the user has grown since the claims were signed. -/
def Outgrown (db : SessionDb) (claims : Claims) : Prop :=
  ∃ user, db.user claims.id = some user ∧ claimsVersion claims < rowVersion user

/-- Every session holds the hash of a token that was issued for it, and an active one of a token that
is not revoked, or whose version has been outgrown. -/
structure RevocationInv (s : RevocationState) : Prop where
  versioned : Versioned s.db
  signed : ∀ cred ∈ s.issued, decode (sign cred.claims) = some cred.claims ∧
    cred.claims.sessionVersion.isSome = true
  version : ∀ cred ∈ s.issued, VersionLe s.db cred.claims
  session : ∀ (k : ℕ) (row : SessionRow), s.db.sessions[k]? = some row →
    ∃ cred ∈ s.issued, cred.session = some k ∧ row.refreshToken = sha256Hex (sign cred.claims) ∧
      cred.claims.id = row.userId ∧
      (row.status = .active → cred.revoked = true → Outgrown s.db cred.claims)

/-- The rows of the users and sessions after an operation come from those before it: versions only
grow, and no session becomes active. -/
structure Succeeds (db db' : SessionDb) : Prop where
  versioned : Versioned db → Versioned db'
  user : ∀ id user, db.user id = some user → ∃ user', db'.user id = some user' ∧
    (Versioned db → rowVersion user ≤ rowVersion user')
  session : ∀ (k : ℕ) (row' : SessionRow), db'.sessions[k]? = some row' →
    ∃ row, db.sessions[k]? = some row ∧ row'.userId = row.userId ∧
      row'.refreshToken = row.refreshToken ∧ (row'.status = .active → row.status = .active)

namespace Succeeds

variable {db' db'' : SessionDb}

theorem trans (h : Succeeds db db') (h' : Succeeds db' db'') : Succeeds db db'' where
  versioned := h'.versioned ∘ h.versioned
  user := fun id user huser => by
    obtain ⟨user', huser', hle⟩ := h.user id user huser
    obtain ⟨user'', huser'', hle'⟩ := h'.user id user' huser'
    exact ⟨user'', huser'', fun hversioned => (hle hversioned).trans (hle' (h.versioned hversioned))⟩
  session := fun k row'' hrow'' => by
    obtain ⟨row', hrow', huser', htoken', hstatus'⟩ := h'.session k row'' hrow''
    obtain ⟨row, hrow, huser, htoken, hstatus⟩ := h.session k row' hrow'
    exact ⟨row, hrow, huser'.trans huser, htoken'.trans htoken, hstatus ∘ hstatus'⟩

/-- The users are the same, and each session is the old one with another status at most. -/
theorem of_sessions (husers : db'.users = db.users)
    (hsession : ∀ (k : ℕ) (row' : SessionRow), db'.sessions[k]? = some row' →
      ∃ row, db.sessions[k]? = some row ∧ row'.userId = row.userId ∧
        row'.refreshToken = row.refreshToken ∧ (row'.status = .active → row.status = .active)) :
    Succeeds db db' where
  versioned := by
    unfold Versioned
    rw [husers]
    exact id
  user := fun id user huser => by
    refine ⟨user, ?_, fun _ => le_rfl⟩
    unfold SessionDb.user at huser ⊢
    rwa [husers]
  session := hsession

theorem refl (db : SessionDb) : Succeeds db db :=
  of_sessions rfl fun _ row hrow => ⟨row, hrow, rfl, rfl, id⟩

theorem terminateWhere (p : SessionRow → Bool) : Succeeds db (db.terminateWhere p) := by
  refine of_sessions rfl fun k row' hrow' => ?_
  unfold SessionDb.terminateWhere at hrow'
  rw [List.getElem?_map] at hrow'
  obtain ⟨row, hrow, rfl⟩ := Option.map_eq_some_iff.1 hrow'
  refine ⟨row, hrow, ?_⟩
  split
  · exact ⟨rfl, rfl, fun h => by cases h⟩
  · exact ⟨rfl, rfl, id⟩

theorem terminateAt (session : ℕ) : Succeeds db (db.terminateAt session) := by
  refine of_sessions rfl fun k row' hrow' => ?_
  rcases getElem?_modify_cases hrow' with ⟨rfl, row, hrow, rfl⟩ | ⟨-, hrow⟩
  · exact ⟨row, hrow, rfl, rfl, fun hstatus => by cases hstatus⟩
  · exact ⟨row', hrow, rfl, rfl, id⟩

theorem revokeWhere (p : RefreshTokenRow → Bool) : Succeeds db (db.revokeWhere p) :=
  of_sessions rfl fun _ row hrow => ⟨row, hrow, rfl, rfl, id⟩

/-- An update of the row of a user that keeps the id, and a version that is there. -/
theorem updateUser {id : String} {f : AccountRow → AccountRow} (hid : ∀ user, (f user).id = user.id)
    (hsome : ∀ user, user.sessionVersion.isSome = true → (f user).sessionVersion.isSome = true)
    (hversion : ∀ user, user.sessionVersion.isSome = true → rowVersion user ≤ rowVersion (f user)) :
    Succeeds db (db.updateUser id f) where
  versioned := fun h user' huser' => by
    obtain ⟨user, huser, rfl⟩ := List.mem_map.1 huser'
    split
    · exact hsome user (h user huser)
    · exact h user huser
  user := fun id' user huser => by
    rw [user_updateUser hid, huser]
    refine ⟨_, rfl, fun hversioned => ?_⟩
    dsimp only
    split
    · exact hversion user (hversioned user (List.mem_of_find?_eq_some huser))
    · exact le_rfl
  session := fun _ row hrow => ⟨row, hrow, rfl, rfl, fun h => h⟩

theorem bumpVersion (id : String) : Succeeds db (db.updateUser id bumpVersion) := by
  refine updateUser (fun _ => rfl) (fun user hsome => ?_) fun user hsome => ?_
  · simpa [Sessions.bumpVersion] using hsome
  · rw [rowVersion_bumpVersion hsome]
    omega

end Succeeds

/-- The version of a user that is bumped has outgrown all tokens of the user. -/
theorem outgrown_of_bump {claims : Claims} (hversioned : Versioned db) (h : VersionLe db claims)
    {f : AccountRow → AccountRow} (hf : ∀ user, (f user).id = user.id)
    (hbump : ∀ user, user.sessionVersion.isSome = true → rowVersion (f user) = rowVersion user + 1) :
    Outgrown (db.updateUser claims.id f) claims := by
  obtain ⟨user, huser, hle⟩ := h
  refine ⟨f user, ?_, ?_⟩
  · rw [user_updateUser hf, huser, Option.map_some, if_pos (id_of_user huser)]
  · rw [hbump user (hversioned user (List.mem_of_find?_eq_some huser))]
    omega

theorem VersionLe.mono {db' : SessionDb} {claims : Claims} (h : VersionLe db claims)
    (hversioned : Versioned db) (hsucceeds : Succeeds db db') : VersionLe db' claims := by
  obtain ⟨user, huser, hle⟩ := h
  obtain ⟨user', huser', hle'⟩ := hsucceeds.user _ user huser
  exact ⟨user', huser', hle.trans (hle' hversioned)⟩

theorem Outgrown.mono {db' : SessionDb} {claims : Claims} (h : Outgrown db claims)
    (hversioned : Versioned db) (hsucceeds : Succeeds db db') : Outgrown db' claims := by
  obtain ⟨user, huser, hlt⟩ := h
  obtain ⟨user', huser', hle'⟩ := hsucceeds.user _ user huser
  exact ⟨user', huser', hlt.trans_le (hle' hversioned)⟩

variable {sign decode} {s : RevocationState} {db' : SessionDb}

/-- An operation that revokes tokens keeps the invariant, when the tokens of the sessions that stay
active are outgrown. -/
theorem RevocationInv.revoke (h : RevocationInv sign decode s) (hsucceeds : Succeeds s.db db')
    {p : Credential → Bool}
    (hactive : ∀ (k : ℕ) (row : SessionRow) (cred : Credential), db'.sessions[k]? = some row →
      row.status = .active → cred ∈ s.issued → cred.session = some k → cred.claims.id = row.userId →
      row.refreshToken = sha256Hex (sign cred.claims) → p cred = true → Outgrown db' cred.claims) :
    RevocationInv sign decode (s.revoke db' p) := by
  have hclaims : ∀ cred' ∈ (s.revoke db' p).issued, ∃ cred ∈ s.issued, cred'.claims = cred.claims := by
    intro cred' hcred'
    obtain ⟨cred, hcred, rfl⟩ := List.mem_map.1 hcred'
    refine ⟨cred, hcred, ?_⟩
    split <;> rfl
  refine ⟨hsucceeds.versioned h.versioned, fun cred' hcred' => ?_, fun cred' hcred' => ?_,
    fun k row' hrow' => ?_⟩
  · obtain ⟨cred, hcred, heq⟩ := hclaims cred' hcred'
    rw [heq]
    exact h.signed cred hcred
  · obtain ⟨cred, hcred, heq⟩ := hclaims cred' hcred'
    rw [heq]
    exact (h.version cred hcred).mono h.versioned hsucceeds
  · obtain ⟨row, hrow, huser, htoken, hstatus⟩ := hsucceeds.session k row' hrow'
    obtain ⟨cred, hcred, hsession, hhash, hid, hrevoked⟩ := h.session k row hrow
    -- The token of the session is the old one, perhaps with the mark.
    refine ⟨_, List.mem_map.2 ⟨cred, hcred, rfl⟩, ?_⟩
    cases hp : p cred with
    | true =>
      refine ⟨hsession, htoken.trans hhash, hid.trans huser.symm, fun hstatus' _ => ?_⟩
      exact hactive k row' cred hrow' hstatus' hcred hsession (hid.trans huser.symm)
        (htoken.trans hhash) hp
    | false =>
      refine ⟨hsession, htoken.trans hhash, hid.trans huser.symm, fun hstatus' hmark => ?_⟩
      exact (hrevoked (hstatus hstatus') hmark).mono h.versioned hsucceeds

/-- An operation that revokes nothing. -/
theorem RevocationInv.succeeds (h : RevocationInv sign decode s) (hsucceeds : Succeeds s.db db') :
    RevocationInv sign decode { s with db := db' } where
  versioned := hsucceeds.versioned h.versioned
  signed := h.signed
  version := fun cred hcred => (h.version cred hcred).mono h.versioned hsucceeds
  session := fun k row' hrow' => by
    obtain ⟨row, hrow, huser, htoken, hstatus⟩ := hsucceeds.session k row' hrow'
    obtain ⟨cred, hcred, hsession, hhash, hid, hrevoked⟩ := h.session k row hrow
    exact ⟨cred, hcred, hsession, htoken.trans hhash, hid.trans huser.symm,
      fun hstatus' hmark => (hrevoked (hstatus hstatus') hmark).mono h.versioned hsucceeds⟩

/-- An operation that issues a token of a user keeps the invariant, when a session that is new or has a
new hash is the one of the token. -/
theorem RevocationInv.issue (h : RevocationInv sign decode s) {claims : Claims} {session : Option ℕ}
    (hsigned : decode (sign claims) = some claims ∧ claims.sessionVersion.isSome = true)
    (hversion : VersionLe s.db claims)
    (husers : db'.users = s.db.users)
    (hsession : ∀ (k : ℕ) (row' : SessionRow), db'.sessions[k]? = some row' →
      (∃ row, s.db.sessions[k]? = some row ∧ row'.userId = row.userId ∧
        row'.refreshToken = row.refreshToken ∧ (row'.status = .active → row.status = .active)) ∨
      (session = some k ∧ row'.refreshToken = sha256Hex (sign claims) ∧ claims.id = row'.userId)) :
    RevocationInv sign decode (s.issue db' claims session) := by
  have huser : ∀ id, db'.user id = s.db.user id := fun id => by
    unfold SessionDb.user
    rw [husers]
  have hle : ∀ claims, VersionLe s.db claims → VersionLe db' claims := fun claims hle => by
    unfold VersionLe at hle ⊢
    rwa [huser]
  refine ⟨?_, fun cred hcred => ?_, fun cred hcred => ?_, fun k row' hrow' => ?_⟩
  · show Versioned db'
    unfold Versioned
    rw [husers]
    exact h.versioned
  · rcases List.mem_append.1 hcred with hcred | hcred
    · exact h.signed cred hcred
    · rw [List.mem_singleton.1 hcred]
      exact hsigned
  · rcases List.mem_append.1 hcred with hcred | hcred
    · exact hle _ (h.version cred hcred)
    · rw [List.mem_singleton.1 hcred]
      exact hle _ hversion
  · rcases hsession k row' hrow' with ⟨row, hrow, hrowUser, htoken, hstatus⟩ | ⟨hk, hhash, hid⟩
    · obtain ⟨cred, hcred, hcredSession, hhash, hid, hrevoked⟩ := h.session k row hrow
      refine ⟨cred, List.mem_append_left _ hcred, hcredSession, htoken.trans hhash,
        hid.trans hrowUser.symm, fun hstatus' hmark => ?_⟩
      have houtgrown := hrevoked (hstatus hstatus') hmark
      unfold Outgrown at houtgrown
      show ∃ user, db'.user cred.claims.id = some user ∧ _
      rwa [huser]
    · exact ⟨⟨claims, session, false⟩, List.mem_append_right _ (List.mem_singleton.2 rfl), hk, hhash, hid,
        fun _ hmark => by cases hmark⟩

/-! ## Every operation keeps it -/

/-- A session that is active after the others were terminated was not among them. -/
theorem active_of_terminateWhere {p : SessionRow → Bool} {k : ℕ} {row : SessionRow}
    (hrow : (db.terminateWhere p).sessions[k]? = some row) (hstatus : row.status = .active) :
    db.sessions[k]? = some row ∧ p row = false := by
  unfold SessionDb.terminateWhere at hrow
  rw [List.getElem?_map] at hrow
  obtain ⟨old, hold, hterminated⟩ := Option.map_eq_some_iff.1 hrow
  cases hp : p old with
  | true =>
    rw [if_pos hp] at hterminated
    rw [← hterminated] at hstatus
    cases hstatus
  | false =>
    rw [if_neg (by simp [hp])] at hterminated
    rw [← hterminated]
    exact ⟨hold, hp⟩

/-- The sessions after an `INSERT INTO user_sessions` are the old ones and the new one. -/
theorem session_of_insertSession {userId hash : String} {k : ℕ} {row' : SessionRow}
    (h : (db.insertSession userId hash).sessions[k]? = some row') :
    db.sessions[k]? = some row' ∨
      (k = db.sessions.length ∧ row'.refreshToken = hash ∧ row'.userId = userId) := by
  rcases getElem?_concat_cases h with hold | ⟨hk, rfl⟩
  · exact Or.inl hold
  · exact Or.inr ⟨hk, rfl, rfl⟩

/-- The sessions and users after a login. -/
theorem insertLogin_spec {userId hash : String} {expiresAt : ℤ} {enforceSingleSession : Bool}
    (h : db.insertLogin userId hash expiresAt enforceSingleSession = some db') :
    db'.users = db.users ∧ ∀ (k : ℕ) (row' : SessionRow), db'.sessions[k]? = some row' →
      (∃ row, db.sessions[k]? = some row ∧ row'.userId = row.userId ∧
        row'.refreshToken = row.refreshToken ∧ (row'.status = .active → row.status = .active)) ∨
      (k = db.sessions.length ∧ row'.refreshToken = hash ∧ row'.userId = userId) := by
  unfold SessionDb.insertLogin at h
  obtain ⟨db₂, hinsert, rfl⟩ := Option.map_eq_some_iff.1 h
  generalize hdb₁ : (if enforceSingleSession then
      db.terminateWhere fun row => row.userId = userId ∧ row.status = .active
    else db) = db₁ at hinsert
  have hsucceeds : Succeeds db db₁ ∧ db₁.users = db.users ∧
      db₁.sessions.length = db.sessions.length := by
    rw [← hdb₁]
    split
    · exact ⟨.terminateWhere _, rfl, List.length_map _⟩
    · exact ⟨.refl db, rfl, rfl⟩
  obtain ⟨hsucceeds, husers, hlength⟩ := hsucceeds
  obtain rfl := insertToken_eq_some hinsert
  refine ⟨husers, fun k row' hrow' => ?_⟩
  rcases session_of_insertSession hrow' with hold | ⟨hk, htoken, huser⟩
  · exact Or.inl (hsucceeds.session k row' hold)
  · exact Or.inr ⟨hk.trans hlength, htoken, huser⟩

/-- The sessions and users after a refresh. -/
theorem rotate_spec {session : ℕ} {hash presentedHash : String} {expiresAt : ℤ} {row : SessionRow}
    (hsession : db.sessions[session]? = some row) :
    ((db.rotateSession session hash).rotateToken presentedHash hash expiresAt).users = db.users ∧
      ∀ (k : ℕ) (row' : SessionRow),
        ((db.rotateSession session hash).rotateToken presentedHash hash expiresAt).sessions[k]? =
          some row' → db.sessions[k]? = some row' ∨
          (k = session ∧ row'.refreshToken = hash ∧ row'.userId = row.userId) := by
  obtain ⟨husers, hsessions⟩ := rotateToken_keeps (db.rotateSession session hash) presentedHash hash
    expiresAt
  refine ⟨husers, fun k row' hrow' => ?_⟩
  rw [hsessions] at hrow'
  rcases getElem?_modify_cases hrow' with ⟨rfl, old, hold, rfl⟩ | ⟨-, hold⟩
  · obtain rfl := Option.some.inj (hsession.symm.trans hold)
    exact Or.inr ⟨rfl, rfl, rfl⟩
  · exact Or.inl hold

/-- The claims that are signed for a user have the version of the row. -/
theorem versionLe_refreshClaims {id : String} {user : AccountRow} (h : db.user id = some user)
    (rememberMe : Bool) (iat : ℤ) : VersionLe db (refreshClaims user rememberMe iat) := by
  refine ⟨user, ?_, le_rfl⟩
  show db.user user.id = some user
  rw [id_of_user h, h]

theorem signs_iff {claims : Claims} : signs sign decode claims = true ↔
    isHashableRefreshToken (sign claims) = true ∧ decode (sign claims) = some claims := by
  unfold signs
  rw [Bool.and_eq_true, decide_eq_true_eq]

theorem RevocationInv.logout (h : RevocationInv sign decode s) (hash : String) :
    RevocationInv sign decode (s.revoke
      ((s.db.revokeWhere fun row => row.token = hash).terminateWhere fun row => row.refreshToken = hash)
      fun cred => cred.session.any fun session =>
        s.db.sessions[session]?.any fun row => row.refreshToken = hash) := by
  refine h.revoke ((Succeeds.revokeWhere _).trans (.terminateWhere _)) ?_
  intro k row cred hrow hstatus _ hsession _ _ hp
  -- The token of a session that stays active was not presented.
  obtain ⟨hold, hother⟩ := active_of_terminateWhere hrow hstatus
  change s.db.sessions[k]? = some row at hold
  rw [hsession, Option.any_some, hold, Option.any_some] at hp
  rw [hp] at hother
  cases hother

theorem RevocationInv.logoutAll (h : RevocationInv sign decode s) (userId : String) :
    RevocationInv sign decode (s.revoke
      ((s.db.terminateWhere fun row => row.userId = userId ∧ row.status = .active).updateUser userId
        bumpVersion)
      fun cred => cred.claims.id = userId) := by
  refine h.revoke ((Succeeds.terminateWhere _).trans (.bumpVersion _)) ?_
  intro k row cred hrow hstatus _ _ hid _ hp
  obtain ⟨-, hother⟩ := active_of_terminateWhere hrow hstatus
  simp only [decide_eq_true_eq] at hp
  simp [← hid, hp, hstatus] at hother

theorem RevocationInv.changePassword (h : RevocationInv sign decode s) (userId : String) :
    RevocationInv sign decode (s.revoke
      (((s.db.updateUser userId bumpVersion).revokeWhere fun row => row.userId = userId).terminateWhere
        fun row => row.userId = userId ∧ row.status = .active)
      fun cred => cred.claims.id = userId) := by
  refine h.revoke (((Succeeds.bumpVersion _).trans (.revokeWhere _)).trans (.terminateWhere _)) ?_
  intro k row cred hrow hstatus _ _ hid _ hp
  obtain ⟨-, hother⟩ := active_of_terminateWhere hrow hstatus
  simp only [decide_eq_true_eq] at hp
  simp [← hid, hp, hstatus] at hother

theorem RevocationInv.terminateSession (h : RevocationInv sign decode s) (session : ℕ) :
    RevocationInv sign decode (s.revoke
      (match s.db.sessions[session]? with
        | some row => (s.db.terminateAt session).updateUser row.userId bumpVersion
        | none => s.db)
      fun cred => cred.session = some session) := by
  cases hsession : s.db.sessions[session]? with
  | none =>
    refine h.revoke (.refl _) ?_
    intro k row cred hrow _ _ hk _ _ hp
    simp only [decide_eq_true_eq] at hp
    rw [hk, Option.some.injEq] at hp
    rw [hp, hsession] at hrow
    cases hrow
  | some old =>
    refine h.revoke ((Succeeds.terminateAt session).trans (.bumpVersion old.userId)) ?_
    intro k row cred hrow hstatus _ hk _ _ hp
    simp only [decide_eq_true_eq] at hp
    rw [hk, Option.some.injEq] at hp
    rcases getElem?_modify_cases hrow with ⟨-, row', -, rfl⟩ | ⟨hne, -⟩
    · cases hstatus
    · exact absurd hp hne

/-- The tokens of a user with a new password are outgrown, also those of the sessions that stay
active. -/
theorem RevocationInv.updateUserPassword (h : RevocationInv sign decode s)
    (id username role status : String) :
    RevocationInv sign decode (s.revoke
      (s.db.updateUser id fun user => bumpVersion (editRow username role status user))
      fun cred => cred.claims.id = id) := by
  have hbump : ∀ user : AccountRow, user.sessionVersion.isSome = true →
      rowVersion (bumpVersion (editRow username role status user)) = rowVersion user + 1 :=
    fun user hsome => @rowVersion_bumpVersion (editRow username role status user) hsome
  have hsucceeds : Succeeds s.db
      (s.db.updateUser id fun user => bumpVersion (editRow username role status user)) := by
    refine .updateUser (fun _ => rfl) (fun user hsome => ?_) fun user hsome => ?_
    · simpa [bumpVersion, editRow] using hsome
    · rw [hbump user hsome]
      omega
  refine h.revoke hsucceeds ?_
  · intro k row cred _ _ hcred _ _ _ hp
    simp only [decide_eq_true_eq] at hp
    rw [← hp]
    exact outgrown_of_bump h.versioned (h.version cred hcred) (fun _ => rfl) hbump

/-- An operation keeps the invariant. -/
theorem revocationStep_inv (s : RevocationState) (a : RevocationAction) (t : RevocationState)
    (h : RevocationInv sign decode s) (hstep : revocationStep sign decode s a = some t) :
    RevocationInv sign decode t := by
  unfold revocationStep at hstep
  cases a with
  | createUser id username role =>
    dsimp only at hstep
    split_ifs at hstep with hid
    obtain rfl := Option.some.inj hstep
    refine h.succeeds ⟨fun hversioned user huser => ?_, fun id' user huser => ?_, fun k row hrow => ?_⟩
    · rcases List.mem_append.1 huser with huser | huser
      · exact hversioned user huser
      · rw [List.mem_singleton.1 huser]
        rfl
    · refine ⟨user, ?_, fun _ => le_rfl⟩
      unfold SessionDb.user at huser ⊢
      rw [List.find?_append, huser]
      rfl
    · exact ⟨row, hrow, rfl, rfl, fun h => h⟩
  | editUser id username role status =>
    obtain rfl := Option.some.inj hstep
    -- The version of the user stays.
    exact h.succeeds (.updateUser (fun _ => rfl) (fun _ hsome => hsome) fun _ _ => le_rfl)
  | login userId rememberMe enforceSingleSession now =>
    obtain ⟨user, huser, hlogin⟩ := Option.bind_eq_some_iff.1 hstep
    dsimp only at hlogin
    split_ifs at hlogin with hblocked
    obtain ⟨db', hinsert, rfl⟩ := Option.map_eq_some_iff.1 hlogin
    -- A session is an old one, or the new one, which has the hash of the new token.
    obtain ⟨husers, hsessions⟩ := insertLogin_spec hinsert
    simp only [Bool.or_eq_true, Bool.not_eq_true', not_or, Bool.not_eq_false] at hblocked
    refine h.issue ⟨(signs_iff.1 hblocked.2).2, rfl⟩ (versionLe_refreshClaims huser _ _) husers ?_
    intro k row' hrow'
    rcases hsessions k row' hrow' with hold | ⟨rfl, htoken, hrowUser⟩
    · exact Or.inl hold
    · exact Or.inr ⟨rfl, htoken, (id_of_user huser).trans hrowUser.symm⟩
  | issueFullTokens userId sessionInserted now =>
    obtain ⟨user, huser, hlogin⟩ := Option.bind_eq_some_iff.1 hstep
    dsimp only at hlogin
    split_ifs at hlogin with hsigns hinserted
    all_goals
      simp only [Bool.not_eq_true', Bool.not_eq_false] at hsigns
      obtain ⟨db', hinsert, rfl⟩ := Option.map_eq_some_iff.1 hlogin
      obtain rfl := insertToken_eq_some hinsert
      refine h.issue ⟨(signs_iff.1 hsigns).2, rfl⟩ (versionLe_refreshClaims huser _ _) rfl
        fun k row' hrow' => ?_
    · rcases session_of_insertSession hrow' with hold | ⟨rfl, htoken, hrowUser⟩
      · exact Or.inl ⟨row', hold, rfl, rfl, id⟩
      · exact Or.inr ⟨rfl, htoken, (id_of_user huser).trans hrowUser.symm⟩
    · exact Or.inl ⟨row', hrow', rfl, rfl, id⟩
  | refresh session text now later =>
    dsimp only at hstep
    split at hstep
    · cases hstep
    · next db' result hrefresh =>
      split_ifs at hstep with hsigns
      simp only [Bool.not_eq_true', Bool.not_eq_false] at hsigns
      obtain ⟨row, user, rememberMe, -, hlookup, hcheck, -, hout⟩ := refresh_eq_ok.1 hrefresh
      rw [Prod.mk.injEq] at hout
      obtain ⟨hdb, hresult⟩ := hout
      obtain ⟨huser, -⟩ := checkUser_eq_ok.1 hcheck
      obtain ⟨hrow, -⟩ := lookup_eq_some.1 hlookup
      rw [← Option.some.inj hstep, hdb]
      rw [hresult] at hsigns ⊢
      -- The rotated session takes the hash of the token that replaces the presented one.
      obtain ⟨husers, hsessions⟩ := rotate_spec hrow
      refine h.issue ⟨(signs_iff.1 hsigns).2, rfl⟩ (versionLe_refreshClaims huser _ _) husers ?_
      intro k row' hrow'
      rcases hsessions k row' hrow' with hold | ⟨rfl, htoken, hrowUser⟩
      · exact Or.inl ⟨row', hold, rfl, rfl, id⟩
      · exact Or.inr ⟨rfl, htoken, (id_of_user huser).trans hrowUser.symm⟩
  | logout text =>
    obtain ⟨hash, -, rfl⟩ := Option.map_eq_some_iff.1 hstep
    exact h.logout hash
  | logoutAll userId =>
    obtain rfl := Option.some.inj hstep
    exact h.logoutAll userId
  | terminateSession session =>
    obtain rfl := Option.some.inj hstep
    exact h.terminateSession session
  | changePassword userId =>
    obtain rfl := Option.some.inj hstep
    exact h.changePassword userId
  | updateUserPassword id username role status =>
    obtain rfl := Option.some.inj hstep
    exact h.updateUserPassword id username role status

theorem RevocationState.init_inv : RevocationInv sign decode .init where
  versioned := fun _ huser => absurd huser List.not_mem_nil
  signed := fun _ hcred => absurd hcred List.not_mem_nil
  version := fun _ hcred => absurd hcred List.not_mem_nil
  session := fun _ _ hrow => absurd (List.mem_of_getElem? hrow) List.not_mem_nil

/-! ## Live tokens -/

variable (sign decode)

/-- The token was issued for the session, and neither it nor its user has been revoked since; it has
not expired, neither by itself nor by its record; and its user is active. -/
def Live (s : RevocationState) (session : ℕ) (text : String) (now : ℤ) : Prop :=
  ∃ cred ∈ s.issued, sign cred.claims = text ∧ cred.session = some session ∧ cred.revoked = false ∧
    now < cred.claims.exp * 1000 ∧
    (∃ row ∈ s.db.refreshTokens, row.token = sha256Hex text ∧ now < row.expiresAt) ∧
    ∃ user, s.db.user cred.claims.id = some user ∧ user.status = "Active"

/-- What `refresh` looks at: the session is active and holds the hash, its user is active and has the
version of the token, and the new token can be hashed. -/
def Accepted (s : RevocationState) (session : ℕ) (text : String) (now : ℤ) : Prop :=
  ∃ row user rememberMe, isHashableRefreshToken text = true ∧
    s.db.lookup (sha256Hex text) session = some row ∧
    checkUser decode s.db text row.userId = .ok (user, rememberMe) ∧
    isHashableRefreshToken (sign (refreshClaims user rememberMe (now / 1000))) = true

/-- The token has expired, by itself or by its record, or it has no record. -/
def Outdated (s : RevocationState) (text : String) (now : ℤ) : Prop :=
  (∃ claims, decode text = some claims ∧ claims.exp * 1000 ≤ now) ∨
    ∀ row ∈ s.db.refreshTokens, row.token = sha256Hex text → row.expiresAt ≤ now

variable {sign decode}

/-- `refresh` succeeds when it accepts the token. -/
theorem refresh_succeeds_iff {session : ℕ} {text : String} {now later : ℤ} :
    (∃ out, refresh sign decode s.db session text now later = .ok out) ↔
      Accepted sign decode s session text now := by
  unfold Accepted
  constructor
  · rintro ⟨out, hrefresh⟩
    obtain ⟨row, user, rememberMe, hhashable, hlookup, hcheck, hnew, -⟩ := refresh_eq_ok.1 hrefresh
    exact ⟨row, user, rememberMe, hhashable, hlookup, hcheck, hnew⟩
  · rintro ⟨row, user, rememberMe, hhashable, hlookup, hcheck, hnew⟩
    exact ⟨_, refresh_eq_ok.2 ⟨row, user, rememberMe, hhashable, hlookup, hcheck, hnew, rfl⟩⟩

/-- A token that is accepted was issued for the session, is not revoked, and has an active user. -/
theorem RevocationInv.of_accepted (h : RevocationInv sign decode s) {session : ℕ} {text : String}
    {now : ℤ}
    (hdistinct : ∀ cred ∈ s.issued, sha256Hex (sign cred.claims) = sha256Hex text →
      sign cred.claims = text)
    (haccepted : Accepted sign decode s session text now) :
    ∃ cred ∈ s.issued, sign cred.claims = text ∧ cred.session = some session ∧ cred.revoked = false ∧
      ∃ user, s.db.user cred.claims.id = some user ∧ user.status = "Active" := by
  obtain ⟨row, user, rememberMe, -, hlookup, hcheck, -⟩ := haccepted
  obtain ⟨hrow, hhash, hactive⟩ := lookup_eq_some.1 hlookup
  obtain ⟨huser, hstatus, hversion, -⟩ := checkUser_eq_ok.1 hcheck
  obtain ⟨cred, hcred, hsession, hheld, hid, hrevoked⟩ := h.session session row hrow
  have htext : sign cred.claims = text := hdistinct cred hcred (hheld.symm.trans hhash)
  rw [← hid] at huser
  refine ⟨cred, hcred, htext, hsession, ?_, user, huser, hstatus⟩
  -- The version of the token is that of the user, so it has not been outgrown.
  by_contra hmark
  obtain ⟨user', huser', hlt⟩ := hrevoked hactive (by simpa using hmark)
  obtain rfl := Option.some.inj (huser.symm.trans huser')
  obtain ⟨hdecode, hcarries⟩ := h.signed cred hcred
  obtain ⟨version, hclaims⟩ := Option.isSome_iff_exists.1 hcarries
  rw [← htext, hdecode, Option.bind_some, hclaims] at hversion
  simp only [Option.all_some, decide_eq_true_eq] at hversion
  unfold claimsVersion rowVersion at hlt
  rw [hclaims, hversion] at hlt
  exact lt_irrefl _ hlt

/-- In every reachable state, `refresh` keeps to live tokens unless it accepts one that has expired, or
whose record has expired or is missing. -/
theorem refresh_live_iff (hs : Reachable (revocationStep sign decode) .init s) (session : ℕ)
    (text : String)
    (hdistinct : ∀ cred ∈ s.issued, sha256Hex (sign cred.claims) = sha256Hex text →
      sign cred.claims = text) (now later : ℤ) :
    ((∃ out, refresh sign decode s.db session text now later = .ok out) →
        Live sign s session text now) ↔
      ¬ (Accepted sign decode s session text now ∧ Outdated decode s text now) := by
  have hinv : RevocationInv sign decode s := hs.invariant revocationStep_inv RevocationState.init_inv
  rw [refresh_succeeds_iff]
  constructor
  · rintro hlive ⟨haccepted, houtdated⟩
    obtain ⟨cred, hcred, htext, -, -, hexp, ⟨row, hrow, htoken, hrecord⟩, -⟩ := hlive haccepted
    rcases houtdated with ⟨claims, hdecode, hpast⟩ | hpast
    · rw [← htext, (hinv.signed cred hcred).1, Option.some.injEq] at hdecode
      rw [hdecode] at hexp
      omega
    · have hle := hpast row hrow htoken
      omega
  · intro hnot haccepted
    obtain ⟨cred, hcred, htext, hsession, hrevoked, huser⟩ := hinv.of_accepted hdistinct haccepted
    have hcurrent : ¬ Outdated decode s text now := fun houtdated => hnot ⟨haccepted, houtdated⟩
    unfold Outdated at hcurrent
    rw [not_or] at hcurrent
    refine ⟨cred, hcred, htext, hsession, hrevoked, ?_, ?_, huser⟩
    · by_contra hpast
      refine hcurrent.1 ⟨cred.claims, ?_, by omega⟩
      rw [← htext]
      exact (hinv.signed cred hcred).1
    · by_contra hnone
      refine hcurrent.2 fun row hrow htoken => ?_
      by_contra hpast
      exact hnone ⟨row, hrow, htoken, by omega⟩

/-- The state after the user was created and has logged in, for eight hours. -/
def loggedIn : RevocationState :=
  ⟨⟨[account], [⟨"user-1", sha256Hex (signText (claimsAt 0)), .active⟩],
    [⟨sha256Hex (signText (claimsAt 0)), "user-1", 28800000, false⟩]⟩, [⟨claimsAt 0, some 0, false⟩]⟩

theorem loggedIn_reachable : Reachable (revocationStep signText decodeText) .init loggedIn :=
  ⟨[.createUser "user-1" "auditor" "Auditor", .login "user-1" false false 0], by decide +kernel⟩

/-- `refresh` accepts the token at any time. -/
theorem loggedIn_accepted (now : ℤ)
    (hnow : isHashableRefreshToken (signText (claimsAt (now / 1000))) = true) :
    Accepted signText decodeText loggedIn 0 (signText (claimsAt 0)) now := by
  refine ⟨⟨"user-1", sha256Hex (signText (claimsAt 0)), .active⟩, account, false, ?_, ?_, ?_, hnow⟩
  · decide
  · exact lookup_eq_some.2 ⟨rfl, rfl, rfl⟩
  · decide +kernel

/-- An hour after the login the token is accepted, and live. -/
theorem refresh_live_after_hour :
    (∃ out, refresh signText decodeText loggedIn.db 0 (signText (claimsAt 0)) 3600000 3600000 =
        .ok out) ∧
      Live signText loggedIn 0 (signText (claimsAt 0)) 3600000 := by
  have haccepted : Accepted signText decodeText loggedIn 0 (signText (claimsAt 0)) 3600000 :=
    loggedIn_accepted _ (by decide +kernel)
  refine ⟨refresh_succeeds_iff.2 haccepted, (refresh_live_iff loggedIn_reachable 0 _ ?_ _ 3600000).2 ?_
    (refresh_succeeds_iff.2 haccepted)⟩
  · intro cred hcred _
    rw [List.mem_singleton.1 hcred]
  · rintro ⟨-, ⟨claims, hdecode, hpast⟩ | hpast⟩
    · have hclaims : decodeText (signText (claimsAt 0)) = some (claimsAt 0) := by decide +kernel
      rw [← Option.some.inj (hclaims.symm.trans hdecode)] at hpast
      exact absurd hpast (by decide)
    · exact absurd (hpast _ List.mem_cons_self rfl) (by decide)

/-- Nine hours after the login `refresh` still takes the token, which was for eight. -/
theorem expired_token_refreshed :
    Reachable (revocationStep signText decodeText) .init loggedIn ∧
      (∃ out, refresh signText decodeText loggedIn.db 0 (signText (claimsAt 0)) 32400000 32400000 =
        .ok out) ∧
      ¬ Live signText loggedIn 0 (signText (claimsAt 0)) 32400000 := by
  refine ⟨loggedIn_reachable, refresh_succeeds_iff.2 (loggedIn_accepted _ (by decide +kernel)), ?_⟩
  rintro ⟨cred, hcred, -, -, -, hexp, -⟩
  rw [List.mem_singleton.1 hcred] at hexp
  exact absurd hexp (by decide)

end AlsaqiBackend.Sessions
