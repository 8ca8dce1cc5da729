import AlsaqiBackend.Auth.Tokens
import AlsaqiBackend.Lib.Run
import AlsaqiBackend.TwoFactor.BackupCodes
import AlsaqiBackend.TwoFactor.Totp

/-!
# The routes of the second factor

The requests of one user: logins, and the routes under `/2fa`. They share one row of `user_totp`, and
take three kinds of credentials: an access token, a `2fa_pending` token, and a `2fa_setup_pending`
token. Requests come one after the other, in any order. `changes` keeps the requests that removed an
enabled row, or put another secret in its place.

`only_disabled_iff` says when that is `DELETE /2fa` with the right password only: exactly when neither
`/2fa/setup` nor `/2fa/setup-pending` is carried out while the second factor is enabled.
`codeOf` gives the codes of every secret, and `compare` stands for `bcrypt.compare`.
-/

namespace AlsaqiBackend.TwoFactor

open AlsaqiBackend.Lib AlsaqiBackend.Auth

/-! ## Requests -/

/-- A row of `user_totp`. -/
structure TotpRecord where
  secret : String
  isEnabled : Bool
  backupCodes : List String
  lastUsedAt : Option ℤ
  deriving DecidableEq, Repr

/-- The requests. A token that was issued by a login is named by its number, and a secret and the hashes
of backup codes are those that `setup` generates. -/
inductive RouteAction
  | tick (ms : ℕ)
  /-- `POST /login`; `policy` is the global setting `two_factor_auth`. -/
  | login (password : String) (policy : Bool)
  /-- `POST /2fa/setup`. -/
  | setup (secret : String) (hashedCodes : List String)
  /-- `POST /2fa/verify`. -/
  | verify (token : String)
  /-- `POST /2fa/validate`. -/
  | validate (tempToken : ℕ) (token : String)
  /-- `POST /2fa/setup-pending`. -/
  | setupPending (tempToken : ℕ) (secret : String) (hashedCodes : List String)
  /-- `POST /2fa/setup-complete`. -/
  | setupComplete (tempToken : ℕ) (token : String)
  /-- `POST /2fa/backup`. -/
  | backup (tempToken : ℕ) (code : String)
  /-- `DELETE /2fa`. -/
  | disable (password : String)
  deriving DecidableEq, Repr

/-- What is stored for the user, the tokens that logins have issued, whether full tokens have been
issued, the clock, and the requests that have changed an enabled row, with the hash of the password at
that time. -/
structure RoutesState where
  id : String
  username : String
  record : Option TotpRecord
  failedAttempts : ℕ
  lockedUntil : Option ℤ
  passwordHash : String
  requires2faSetup : Bool
  authenticated : Bool
  tempTokens : List Claims
  now : ℤ
  changes : List (RouteAction × String)
  deriving DecidableEq, Repr

namespace RoutesState

/-- A user without a second factor. -/
def init (id username passwordHash : String) (requires2faSetup : Bool) (now : ℤ) : RoutesState :=
  ⟨id, username, none, 0, none, passwordHash, requires2faSetup, false, [], now, []⟩

/-- `TOTPServiceImpl.setup`. -/
def setup (s : RoutesState) (secret : String) (hashedCodes : List String) : RoutesState :=
  { s with record := some ⟨secret, false, hashedCodes, none⟩ }

/-- `UPDATE user_totp SET is_enabled = TRUE`. -/
def enable (s : RoutesState) : RoutesState :=
  { s with record := s.record.map fun record => { record with isEnabled := true } }

/-- `issueFullTokens`. -/
def issueFullTokens (s : RoutesState) : RoutesState := { s with authenticated := true }

/-- `totpService.isEnabled`. -/
def isEnabled (s : RoutesState) : Bool := s.record.any TotpRecord.isEnabled

/-- `verifyTempToken`: the token was issued, is of that type, and has not expired. -/
def tempTokenValid (s : RoutesState) (tempToken : ℕ) (type : String) : Bool :=
  s.tempTokens[tempToken]?.any fun claims => claims.type = some type ∧ s.now / 1000 < claims.exp

end RoutesState

variable (codeOf : String → ℤ → String) (compare : String → String → Bool)

/-- `TOTPServiceImpl.verify`. -/
def verifyTotp (s : RoutesState) (token : String) : RoutesState × Bool :=
  match s.record with
  | none => (s, false)
  | some record =>
    let (totp, result) := verify (codeOf record.secret)
      ⟨record.lastUsedAt, s.failedAttempts, s.lockedUntil⟩ token s.now (readingsFrom s.now 0 0 0) s.now
    ({ s with
      record := some { record with lastUsedAt := totp.lastUsedAt }
      failedAttempts := totp.failedAttempts
      lockedUntil := totp.lockedUntil }, result)

/-- `TOTPServiceImpl.useBackupCode`. -/
def useBackupCode (s : RoutesState) (code : String) : RoutesState × Bool :=
  match s.record with
  | none => (s, false)
  | some record =>
    match matchPhase compare (some record.backupCodes) code with
    | .matched hashedCodes matchIndex =>
      ({ s with record := some { record with
          backupCodes := hashedCodes.eraseIdx matchIndex, lastUsedAt := some s.now } }, true)
    | _ => (s, false)

/-- The state after a request; `none` when it is refused before it does anything. -/
def respond (s : RoutesState) : RouteAction → Option RoutesState
  | .tick ms => some { s with now := s.now + ms }
  | .login password policy =>
    if !compare password s.passwordHash then none
    else if s.isEnabled then
      some { s with
        tempTokens := s.tempTokens ++ [(Issuer.twoFactorPending s.id s.username).claims (s.now / 1000)] }
    else if s.requires2faSetup || policy then
      some { s with
        tempTokens := s.tempTokens ++
          [(Issuer.twoFactorSetupPending s.id s.username).claims (s.now / 1000)] }
    else some s.issueFullTokens
  | .setup secret hashedCodes => if !s.authenticated then none else some (s.setup secret hashedCodes)
  | .verify token =>
    if !s.authenticated then none
    else
      let (s, isValid) := verifyTotp codeOf s token
      some (if isValid then s.enable else s)
  | .validate tempToken token =>
    if !s.tempTokenValid tempToken "2fa_pending" then none
    else
      let (s, isValid) := verifyTotp codeOf s token
      some (if isValid then s.issueFullTokens else s)
  | .setupPending tempToken secret hashedCodes =>
    if !s.tempTokenValid tempToken "2fa_setup_pending" then none
    -- Only a secret that is not enabled yet is kept from being overwritten.
    else if s.record.any fun existing => !existing.isEnabled then none
    else some (s.setup secret hashedCodes)
  | .setupComplete tempToken token =>
    if !s.tempTokenValid tempToken "2fa_setup_pending" then none
    else
      let (s, isValid) := verifyTotp codeOf s token
      some (if isValid then ({ s.enable with requires2faSetup := false } : RoutesState).issueFullTokens
        else s)
  | .backup tempToken code =>
    if !s.tempTokenValid tempToken "2fa_pending" then none
    else
      let (s, isValid) := useBackupCode compare s code
      some (if isValid then s.issueFullTokens else s)
  | .disable password =>
    if !s.authenticated || !compare password s.passwordHash || s.record.isNone then none
    else some { s with record := none }

/-- An enabled row is gone, or has another secret, or is not enabled any more. -/
def changesEnabled (old new : Option TotpRecord) : Bool :=
  old.any fun r => r.isEnabled && !new.any fun r' => r'.isEnabled && r'.secret = r.secret

/-- A request, and the note of what it did to an enabled row. -/
def routeStep (s : RoutesState) (a : RouteAction) : Option RoutesState :=
  (respond codeOf compare s a).map fun t =>
    { t with
      changes := if changesEnabled s.record t.record then s.changes ++ [(a, s.passwordHash)]
        else s.changes }

/-! ## What a request does to the row -/

/-- Neither `/2fa/setup` nor `/2fa/setup-pending` comes while the second factor is enabled. -/
def noSetupWhileEnabled (s : RoutesState) : RouteAction → Bool
  | .setup _ _ => !s.isEnabled
  | .setupPending _ _ _ => !s.isEnabled
  | _ => true

/-- The row has the same secret, and is enabled if it was. -/
def KeepsSecret (old new : Option TotpRecord) : Prop :=
  ∀ r, old = some r →
    ∃ r', new = some r' ∧ r'.secret = r.secret ∧ (r.isEnabled = true → r'.isEnabled = true)

theorem KeepsSecret.refl (old : Option TotpRecord) : KeepsSecret old old :=
  fun r hr => ⟨r, hr, rfl, id⟩

theorem KeepsSecret.trans {old mid new : Option TotpRecord} (h : KeepsSecret old mid)
    (h' : KeepsSecret mid new) : KeepsSecret old new := by
  intro r hr
  obtain ⟨r', hr', hsecret, henabled⟩ := h r hr
  obtain ⟨r'', hr'', hsecret', henabled'⟩ := h' r' hr'
  exact ⟨r'', hr'', hsecret'.trans hsecret, henabled' ∘ henabled⟩

theorem KeepsSecret.enable (s : RoutesState) : KeepsSecret s.record s.enable.record := by
  intro r hr
  refine ⟨{ r with isEnabled := true }, ?_, rfl, fun _ => rfl⟩
  unfold RoutesState.enable
  rw [hr]
  rfl

theorem KeepsSecret.not_changesEnabled {old new : Option TotpRecord} (h : KeepsSecret old new) :
    changesEnabled old new = false := by
  unfold changesEnabled
  cases old with
  | none => rfl
  | some r =>
    obtain ⟨r', rfl, hsecret, henabled⟩ := h r rfl
    rw [Option.any_some, Option.any_some]
    cases hr : r.isEnabled with
    | false => rfl
    | true => simp [hsecret, henabled hr]

variable {codeOf compare} {s t : RoutesState}

theorem verifyTotp_keeps (token : String) :
    KeepsSecret s.record (verifyTotp codeOf s token).1.record := by
  intro r hr
  unfold verifyTotp
  rw [hr]
  exact ⟨_, rfl, rfl, id⟩

theorem useBackupCode_keeps (code : String) :
    KeepsSecret s.record (useBackupCode compare s code).1.record := by
  intro r hr
  unfold useBackupCode
  rw [hr]
  dsimp only
  split
  · exact ⟨_, rfl, rfl, id⟩
  · exact ⟨r, hr, rfl, id⟩

/-- What a request can do to the row: keep the secret, set up a new one, or remove it with the right
password. -/
theorem respond_cases {a : RouteAction} (h : respond codeOf compare s a = some t) :
    (noSetupWhileEnabled s a = true ∧ KeepsSecret s.record t.record) ∨
      (noSetupWhileEnabled s a = (!s.isEnabled) ∧ (∀ password, a ≠ .disable password) ∧
        t.record.any TotpRecord.isEnabled = false) ∨
      ∃ password, a = .disable password ∧ compare password s.passwordHash = true := by
  unfold respond at h
  cases a with
  | tick ms =>
    obtain rfl := Option.some.inj h
    exact Or.inl ⟨rfl, .refl _⟩
  | login password policy =>
    dsimp only at h
    split_ifs at h
    all_goals
      obtain rfl := Option.some.inj h
      exact Or.inl ⟨rfl, .refl _⟩
  | setup secret hashedCodes | setupPending _ secret hashedCodes =>
    dsimp only at h
    split_ifs at h
    obtain rfl := Option.some.inj h
    exact Or.inr (Or.inl ⟨rfl, fun _ => nofun, rfl⟩)
  | verify token | setupComplete _ token =>
    dsimp only at h
    split_ifs at h
    · obtain rfl := Option.some.inj h
      exact Or.inl ⟨rfl, (verifyTotp_keeps token).trans (.enable _)⟩
    · obtain rfl := Option.some.inj h
      exact Or.inl ⟨rfl, verifyTotp_keeps token⟩
  | validate tempToken token =>
    dsimp only at h
    split_ifs at h
    all_goals
      obtain rfl := Option.some.inj h
      exact Or.inl ⟨rfl, verifyTotp_keeps token⟩
  | backup tempToken code =>
    dsimp only at h
    split_ifs at h
    all_goals
      obtain rfl := Option.some.inj h
      exact Or.inl ⟨rfl, useBackupCode_keeps code⟩
  | disable password =>
    dsimp only at h
    split_ifs at h with hrefused
    simp only [Bool.or_eq_true, Bool.not_eq_true', not_or, Bool.not_eq_false] at hrefused
    exact Or.inr (Or.inr ⟨password, rfl, hrefused.1.2⟩)

/-! ## Only with the password -/

variable (compare)

/-- Every request that removed an enabled row, or replaced it, was `DELETE /2fa` with the right
password. -/
def OnlyDisabled (s : RoutesState) : Prop :=
  ∀ c ∈ s.changes, ∃ password, c.1 = .disable password ∧ compare password c.2 = true

variable {compare}

theorem OnlyDisabled.append {a : RouteAction} {passwordHash : String} (h : OnlyDisabled compare s) :
    OnlyDisabled compare { t with changes := s.changes ++ [(a, passwordHash)] } ↔
      ∃ password, a = .disable password ∧ compare password passwordHash = true := by
  constructor
  · intro hall
    exact hall (a, passwordHash) (List.mem_append_right _ (List.mem_singleton.2 rfl))
  · intro ha c hc
    rcases List.mem_append.1 hc with hold | hnew
    · exact h c hold
    · obtain rfl := List.mem_singleton.1 hnew
      exact ha

/-- A request that leaves a row that is not enabled is a change exactly when the row was enabled. -/
theorem changesEnabled_of_disabled {new : Option TotpRecord}
    (hnew : new.any TotpRecord.isEnabled = false) : changesEnabled s.record new = s.isEnabled := by
  unfold changesEnabled RoutesState.isEnabled
  have hnone : ∀ secret : String, (new.any fun r' => r'.isEnabled && r'.secret = secret) = false := by
    intro secret
    cases new with
    | none => rfl
    | some r' =>
      have hr' : r'.isEnabled = false := hnew
      simp [hr']
  simp only [hnone, Bool.not_false, Bool.and_true]

/-- From a state without other changes, a request makes none exactly when it meets the condition. -/
theorem routeStep_onlyDisabled_iff (s : RoutesState) (a : RouteAction) (t : RoutesState)
    (h : OnlyDisabled compare s) (hstep : routeStep codeOf compare s a = some t) :
    OnlyDisabled compare t ↔ noSetupWhileEnabled s a = true := by
  obtain ⟨u, hrespond, rfl⟩ := Option.map_eq_some_iff.1 hstep
  rcases respond_cases hrespond with ⟨hno, hkeeps⟩ | ⟨hguard, hnot, hdisabled⟩ |
    ⟨password, rfl, hpassword⟩
  · have hsame : changesEnabled s.record u.record = false := hkeeps.not_changesEnabled
    rw [hsame, hno]
    exact ⟨fun _ => rfl, fun _ => h⟩
  · rw [changesEnabled_of_disabled hdisabled, hguard]
    cases henabled : s.isEnabled with
    | false => exact ⟨fun _ => rfl, fun _ => h⟩
    | true =>
      -- A setup is a change of the enabled row, and no `DELETE /2fa`.
      refine ⟨fun hall => ?_, fun hfalse => nomatch hfalse⟩
      obtain ⟨password, ha, -⟩ := h.append.1 hall
      exact absurd ha (hnot password)
  · refine ⟨fun _ => rfl, fun _ => ?_⟩
    cases changesEnabled s.record u.record with
    | false => exact h
    | true => exact h.append.2 ⟨password, rfl, hpassword⟩

/-- An enabled second factor is removed or replaced only by `DELETE /2fa` with the right password, along
the run, exactly when neither `/2fa/setup` nor `/2fa/setup-pending` is carried out while it is
enabled. -/
theorem only_disabled_iff (id username passwordHash : String) (requires2faSetup : Bool) (now : ℤ)
    (as : List RouteAction) :
    Along (routeStep codeOf compare) (OnlyDisabled compare)
        (.init id username passwordHash requires2faSetup now) as ↔
      Guarded (routeStep codeOf compare) (fun s a => noSetupWhileEnabled s a = true)
        (.init id username passwordHash requires2faSetup now) as := by
  have hinit : OnlyDisabled compare (.init id username passwordHash requires2faSetup now) :=
    fun c hc => absurd hc List.not_mem_nil
  exact along_iff_guarded (fun _ _ _ _ _ => trivial)
    (fun s a t (_ : True) h hstep => routeStep_onlyDisabled_iff s a t h hstep) as trivial hinit

/-- The codes of a secret, each secret from another step on. -/
def secretDigits (secret : String) (step : ℤ) : String := sixDigits (step + secret.length)

/-- A user who has to enroll logs in, sets the second factor up and completes it; a minute later the
token of that login is used to set up another one. -/
def stalePendingToken : List RouteAction :=
  [.login "password" false, .setupPending 0 "first" ["hash of A"],
    .setupComplete 0 (secretDigits "first" 0), .tick 60000, .setupPending 0 "second" ["hash of B"]]

/-- A user with a second factor, logged in, who asks for `/2fa/setup`. -/
def setupWithoutPassword : List RouteAction :=
  [.login "password" false, .setup "first" ["hash of A"], .verify (secretDigits "first" 0), .tick 60000,
    .setup "second" ["hash of B"]]

theorem not_onlyDisabled {a : RouteAction} {passwordHash : String} (hs : s.changes = [(a, passwordHash)])
    (ha : ∀ password, a ≠ .disable password) : ¬ OnlyDisabled compare s := by
  intro h
  have hmem : (a, passwordHash) ∈ s.changes := hs ▸ List.mem_singleton.2 rfl
  obtain ⟨password, hdisable, -⟩ := h _ hmem
  exact ha password hdisable

/-- Both replace the enabled secret by one that is not enabled, without the password. -/
theorem enabled_secret_replaced :
    (∃ s, run (routeStep secretDigits matchesText) (.init "user-1" "user" "hash of password" true 0)
        stalePendingToken = some s ∧
      s.record = some ⟨"second", false, ["hash of B"], none⟩ ∧ ¬ OnlyDisabled matchesText s) ∧
    ∃ s, run (routeStep secretDigits matchesText) (.init "user-1" "user" "hash of password" false 0)
        setupWithoutPassword = some s ∧
      s.record = some ⟨"second", false, ["hash of B"], none⟩ ∧ ¬ OnlyDisabled matchesText s := by
  constructor
  · have hrun : (run (routeStep secretDigits matchesText)
        (.init "user-1" "user" "hash of password" true 0) stalePendingToken).map
          (fun s => (s.record, s.changes)) = some (some ⟨"second", false, ["hash of B"], none⟩,
            [(.setupPending 0 "second" ["hash of B"], "hash of password")]) := by
      decide +kernel
    obtain ⟨s, hs, hpair⟩ := Option.map_eq_some_iff.1 hrun
    rw [Prod.mk.injEq] at hpair
    exact ⟨s, hs, hpair.1, not_onlyDisabled hpair.2 fun _ => nofun⟩
  · have hrun : (run (routeStep secretDigits matchesText)
        (.init "user-1" "user" "hash of password" false 0) setupWithoutPassword).map
          (fun s => (s.record, s.changes)) = some (some ⟨"second", false, ["hash of B"], none⟩,
            [(.setup "second" ["hash of B"], "hash of password")]) := by
      decide +kernel
    obtain ⟨s, hs, hpair⟩ := Option.map_eq_some_iff.1 hrun
    rw [Prod.mk.injEq] at hpair
    exact ⟨s, hs, hpair.1, not_onlyDisabled hpair.2 fun _ => nofun⟩

end AlsaqiBackend.TwoFactor
