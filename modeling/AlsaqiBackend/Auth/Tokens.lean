import AlsaqiBackend.Auth.Cache
import AlsaqiBackend.Lib.JsString
import AlsaqiBackend.Lib.Modify
import AlsaqiBackend.Lib.Sha256

/-!
# Tokens and their purposes

All tokens of the system are signed with one key, and differ only in the claims that they carry. This
module has the claims that each issuer signs, the consumers, and the table of sessions, which holds the
hashes of the refresh tokens. `purpose_separated_iff` says exactly when a consumer keeps to the tokens
of its own kind: always but for `authenticate`, which does not look at the `type` of a token, nor for a
`rememberMe`, and takes refresh tokens and tokens for web sockets for access tokens.

`decode` stands for `jwt.decode`: the claims that a text carries. Times are seconds.
-/

namespace AlsaqiBackend.Auth

open AlsaqiBackend.Lib

/-! ## Issuers -/

/-- What the issuers and consumers read of a user. -/
structure AccountRow where
  id : String
  username : String
  role : String
  status : String
  sessionVersion : Option ℤ
  deriving DecidableEq, Repr

/-- The claims of a token. `sessionVersion` is `none` when the claim is missing, and `some none` when
it is null. -/
structure Claims where
  id : String
  username : String
  role : Option String
  type : Option String
  sessionVersion : Option (Option ℤ)
  rememberMe : Option Bool
  iat : ℤ
  exp : ℤ
  deriving DecidableEq, Repr

/-- The claims of an access token. -/
def accessClaims (user : AccountRow) (iat : ℤ) : Claims :=
  ⟨user.id, user.username, some user.role, none, some user.sessionVersion, none, iat, iat + 15 * 60⟩

/-- The claims of a refresh token. -/
def refreshClaims (user : AccountRow) (rememberMe : Bool) (iat : ℤ) : Claims :=
  ⟨user.id, user.username, some user.role, none, some user.sessionVersion, some rememberMe, iat,
    iat + if rememberMe then 30 * 24 * 60 * 60 else 8 * 60 * 60⟩

/-- The claims of a short-lived token of a type. -/
def typedClaims (id username type : String) (sessionVersion : Option (Option ℤ)) (seconds iat : ℤ) :
    Claims := ⟨id, username, none, some type, sessionVersion, none, iat, iat + seconds⟩

/-- The places that sign a token. -/
inductive Issuer
  /-- The access token of `AuthService.login`. -/
  | loginToken (user : AccountRow)
  /-- The refresh token of `AuthService.login`. -/
  | loginRefreshToken (user : AccountRow) (rememberMe : Bool)
  /-- The access token of `SessionService.refresh`. -/
  | refreshToken (user : AccountRow)
  /-- The refresh token of `SessionService.refresh`. -/
  | newRefreshToken (user : AccountRow) (rememberMe : Bool)
  /-- The access token of `issueFullTokens`. -/
  | issueFullTokens (user : AccountRow)
  /-- The refresh token of `issueFullTokens`. -/
  | issueFullTokensRefresh (user : AccountRow)
  /-- `POST /change-password`. -/
  | changePassword (user : AccountRow)
  /-- `POST /update-password`. -/
  | updatePassword (user : AccountRow)
  /-- `POST /login`, for a user with two factors. -/
  | twoFactorPending (id username : String)
  /-- `POST /login`, for a user who has to set up a second factor. -/
  | twoFactorSetupPending (id username : String)
  /-- `GET /ws-token`, with the row of the user if there is one. -/
  | wsToken (id username : String) (dbUser : Option AccountRow)
  deriving DecidableEq, Repr

/-- The claims that an issuer signs. -/
def Issuer.claims (iat : ℤ) : Issuer → Claims
  | .loginToken user => accessClaims user iat
  | .loginRefreshToken user rememberMe => refreshClaims user rememberMe iat
  | .refreshToken user => accessClaims user iat
  | .newRefreshToken user rememberMe => refreshClaims user rememberMe iat
  | .issueFullTokens user => accessClaims user iat
  | .issueFullTokensRefresh user => refreshClaims user false iat
  | .changePassword user => accessClaims user iat
  | .updatePassword user => accessClaims user iat
  | .twoFactorPending id username => typedClaims id username "2fa_pending" none (5 * 60) iat
  | .twoFactorSetupPending id username =>
    typedClaims id username "2fa_setup_pending" none (10 * 60) iat
  | .wsToken id username dbUser =>
    typedClaims id username "ws" (dbUser.map AccountRow.sessionVersion) 30 iat

/-- What a token is issued for. -/
inductive TokenKind
  | access
  | refresh
  | twoFactorPending
  | twoFactorSetupPending
  | ws
  deriving DecidableEq, Repr

def Issuer.kind : Issuer → TokenKind
  | .loginToken _ | .refreshToken _ | .issueFullTokens _ | .changePassword _ | .updatePassword _ =>
    .access
  | .loginRefreshToken _ _ | .newRefreshToken _ _ | .issueFullTokensRefresh _ => .refresh
  | .twoFactorPending _ _ => .twoFactorPending
  | .twoFactorSetupPending _ _ => .twoFactorSetupPending
  | .wsToken _ _ _ => .ws

/-! ## Sessions -/

/-- `user_sessions.status`. -/
inductive SessionStatus
  | active
  | terminated
  | expired
  deriving DecidableEq, Repr

/-- A row of `user_sessions`. -/
structure SessionRow where
  userId : String
  refreshToken : String
  status : SessionStatus
  deriving DecidableEq, Repr

structure IssuedToken where
  text : String
  issuer : Issuer
  iat : ℤ
  deriving DecidableEq, Repr

def IssuedToken.claims (t : IssuedToken) : Claims := t.issuer.claims t.iat

/-- The sessions, and the tokens that have been signed. -/
structure TokenState where
  sessions : List SessionRow
  issued : List IssuedToken
  deriving DecidableEq, Repr

def TokenState.init : TokenState := ⟨[], []⟩

/-- What happens to the sessions. -/
inductive TokenAction
  /-- An issuer signs a token. -/
  | issue (t : IssuedToken)
  /-- `SessionService.refresh` puts its new refresh token into a session. -/
  | rotate (row : ℕ) (t : IssuedToken)
  /-- A session gets a status. -/
  | setStatus (row : ℕ) (status : SessionStatus)
  deriving DecidableEq, Repr

/-- The session that goes with a token: logins store the hash of their refresh token. -/
def IssuedToken.session (t : IssuedToken) : List SessionRow :=
  match t.issuer with
  | .loginRefreshToken user _ => [⟨user.id, sha256Hex t.text, .active⟩]
  | .issueFullTokensRefresh user => [⟨user.id, sha256Hex t.text, .active⟩]
  | _ => []

variable (decode : String → Option Claims)

/-- One step. A token that is signed decodes to its claims. -/
def tokenStep (s : TokenState) : TokenAction → Option TokenState
  | .issue t =>
    if decode t.text ≠ some t.claims then none
    else some ⟨s.sessions ++ t.session, s.issued ++ [t]⟩
  | .rotate row t =>
    if decode t.text ≠ some t.claims ∨ t.issuer.kind ≠ .refresh then none
    else some ⟨s.sessions.modify row ({ · with refreshToken := sha256Hex t.text }), s.issued ++ [t]⟩
  | .setStatus row status => some { s with sessions := s.sessions.modify row ({ · with status := status }) }

/-! ## Consumers -/

/-- The places that take a token. -/
inductive Consumer
  | authenticate
  | authenticateWsRequest
  | twoFactorValidate
  | twoFactorBackup
  | twoFactorSetupPending
  | twoFactorSetupComplete
  | refresh
  deriving DecidableEq, Repr

/-- The kind of token that a consumer is for. -/
def Consumer.own : Consumer → TokenKind
  | .authenticate => .access
  | .authenticateWsRequest => .ws
  | .twoFactorValidate | .twoFactorBackup => .twoFactorPending
  | .twoFactorSetupPending | .twoFactorSetupComplete => .twoFactorSetupPending
  | .refresh => .refresh

/-- `jwt.verify` on a text that the system has signed: the claims, unless they have expired. -/
def jwtVerify (text : String) (now : ℤ) : Option Claims :=
  (decode text).filter fun claims => now < claims.exp

/-- `authenticate`, with `users` for the rows that `getCachedOrDb` gives. -/
def authenticateAccepts (users : String → Option AccountRow) (text : String) (now : ℤ) : Bool :=
  (jwtVerify decode text now).any fun claims =>
    (users claims.id).any fun user =>
      !isLoginBlockedStatus user.status && some user.sessionVersion == claims.sessionVersion

/-- `authenticateWsRequest`. -/
def wsAccepts (users : String → Option AccountRow) (text : String) (now : ℤ) : Bool :=
  (jwtVerify decode text now).any fun claims =>
    claims.id != "" && claims.type == some "ws" &&
      (users claims.id).any fun user =>
        !isLoginBlockedStatus user.status &&
          claims.sessionVersion.all (· == user.sessionVersion)

/-- `verifyTempToken`. -/
def verifyTempToken (text expectedType : String) (now : ℤ) : Bool :=
  (jwtVerify decode text now).any fun claims => claims.type == some expectedType

/-- Maximum accepted refresh-token length. -/
def MAX_REFRESH_TOKEN_LENGTH : ℕ := 4096

/-- `isHashableRefreshToken`. -/
def isHashableRefreshToken (text : String) : Bool :=
  0 < utf16Length text && utf16Length text ≤ MAX_REFRESH_TOKEN_LENGTH

/-- `SessionService.refresh`, up to the tokens that it signs. -/
def refreshAccepts (sessions : List SessionRow) (users : String → Option AccountRow) (text : String) :
    Bool :=
  isHashableRefreshToken text &&
    (sessions.find? fun row => row.refreshToken = sha256Hex text ∧ row.status = .active).any
      fun session => (users session.userId).any fun user =>
        user.status == "Active" &&
          ((decode text).bind Claims.sessionVersion).all (· == user.sessionVersion)

/-- Whether a consumer accepts a text. -/
def Consumer.accepts (s : TokenState) (users : String → Option AccountRow) (text : String) (now : ℤ) :
    Consumer → Bool
  | .authenticate => authenticateAccepts decode users text now
  | .authenticateWsRequest => wsAccepts decode users text now
  | .twoFactorValidate => verifyTempToken decode text "2fa_pending" now
  | .twoFactorBackup => verifyTempToken decode text "2fa_pending" now
  | .twoFactorSetupPending => verifyTempToken decode text "2fa_setup_pending" now
  | .twoFactorSetupComplete => verifyTempToken decode text "2fa_setup_pending" now
  | .refresh => refreshAccepts decode s.sessions users text

/-! ## What the claims say of the kind -/

/-- The `type` that tokens of a kind carry. -/
def TokenKind.type : TokenKind → Option String
  | .access | .refresh => none
  | .twoFactorPending => some "2fa_pending"
  | .twoFactorSetupPending => some "2fa_setup_pending"
  | .ws => some "ws"

theorem IssuedToken.type_eq (t : IssuedToken) : t.claims.type = t.issuer.kind.type := by
  unfold IssuedToken.claims
  cases t.issuer <;> rfl

/-- Only refresh tokens carry `rememberMe`. -/
theorem IssuedToken.rememberMe_isSome (t : IssuedToken) :
    t.claims.rememberMe.isSome = true ↔ t.issuer.kind = .refresh := by
  unfold IssuedToken.claims
  cases t.issuer <;> simp [Issuer.claims, Issuer.kind, accessClaims, refreshClaims, typedClaims]

/-- The tokens for a second factor carry no `session_version`. -/
theorem IssuedToken.sessionVersion_eq_none (t : IssuedToken)
    (h : t.issuer.kind = .twoFactorPending ∨ t.issuer.kind = .twoFactorSetupPending) :
    t.claims.sessionVersion = none := by
  unfold IssuedToken.claims
  cases hissuer : t.issuer with
  | twoFactorPending id username => rfl
  | twoFactorSetupPending id username => rfl
  | loginToken | loginRefreshToken | refreshToken | newRefreshToken | issueFullTokens
  | issueFullTokensRefresh | changePassword | updatePassword | wsToken =>
    rw [hissuer] at h
    exact absurd h (by simp [Issuer.kind])

/-! ## Runs -/

/-- Every signed token decodes to its claims, and every session has the hash of a refresh token. -/
structure TokenInv (s : TokenState) : Prop where
  decodes : ∀ t ∈ s.issued, decode t.text = some t.claims
  sessions : ∀ row ∈ s.sessions, ∃ t ∈ s.issued, t.issuer.kind = .refresh ∧
    row.refreshToken = sha256Hex t.text

theorem TokenState.init_inv : TokenInv decode .init where
  decodes := fun _ ht => absurd ht List.not_mem_nil
  sessions := fun _ hrow => absurd hrow List.not_mem_nil

variable {decode}

/-- A new token keeps the invariant, when the sessions have hashes of refresh tokens with it. -/
theorem TokenInv.issue {s : TokenState} (h : TokenInv decode s) {t : IssuedToken}
    (ht : decode t.text = some t.claims) {sessions : List SessionRow}
    (hsessions : ∀ row ∈ sessions, (∃ old ∈ s.sessions, row.refreshToken = old.refreshToken) ∨
      (t.issuer.kind = .refresh ∧ row.refreshToken = sha256Hex t.text)) :
    TokenInv decode ⟨sessions, s.issued ++ [t]⟩ := by
  refine ⟨fun t' ht' => ?_, fun row hrow => ?_⟩
  · rcases List.mem_append.1 ht' with hold | hnew
    · exact h.decodes t' hold
    · rw [List.mem_singleton.1 hnew]
      exact ht
  · rcases hsessions row hrow with ⟨old, hold, heq⟩ | ⟨hkind, heq⟩
    · obtain ⟨t', ht', hkind, hhash⟩ := h.sessions old hold
      exact ⟨t', List.mem_append_left _ ht', hkind, heq.trans hhash⟩
    · exact ⟨t, List.mem_append_right _ (List.mem_singleton.2 rfl), hkind, heq⟩

/-- A step keeps the invariant. -/
theorem tokenStep_inv (s : TokenState) (a : TokenAction) (u : TokenState) (h : TokenInv decode s)
    (hstep : tokenStep decode s a = some u) : TokenInv decode u := by
  cases a with
  | issue t =>
    simp only [tokenStep] at hstep
    split_ifs at hstep with hdecode
    obtain rfl := Option.some.inj hstep
    refine h.issue (not_not.1 hdecode) fun row hrow => ?_
    rcases List.mem_append.1 hrow with hold | hnew
    · exact Or.inl ⟨row, hold, rfl⟩
    · -- Only refresh tokens come with a session.
      unfold IssuedToken.session at hnew
      split at hnew
      · next user rememberMe hissuer =>
        rw [List.mem_singleton.1 hnew, hissuer]
        exact Or.inr ⟨rfl, rfl⟩
      · next user hissuer =>
        rw [List.mem_singleton.1 hnew, hissuer]
        exact Or.inr ⟨rfl, rfl⟩
      · exact absurd hnew List.not_mem_nil
  | rotate i t =>
    simp only [tokenStep] at hstep
    split_ifs at hstep with hbad
    obtain rfl := Option.some.inj hstep
    obtain ⟨hdecode, hkind⟩ := not_or.1 hbad
    refine h.issue (not_not.1 hdecode) fun row hrow => ?_
    rcases mem_modify_cases hrow with hold | ⟨old, -, rfl⟩
    · exact Or.inl ⟨row, hold, rfl⟩
    · exact Or.inr ⟨not_not.1 hkind, rfl⟩
  | setStatus i status =>
    obtain rfl := Option.some.inj hstep
    refine ⟨h.decodes, fun row hrow => ?_⟩
    rcases mem_modify_cases hrow with hold | ⟨old, hold, rfl⟩
    · exact h.sessions row hold
    · exact h.sessions old hold

/-- In every reachable state the invariant holds. -/
theorem tokenInv_of_reachable {s : TokenState} (h : Reachable (tokenStep decode) .init s) :
    TokenInv decode s :=
  h.invariant tokenStep_inv (TokenState.init_inv decode)

/-! ## Separation -/

/-- The texts of different signed tokens have different hashes. -/
def HashesDistinct (s : TokenState) : Prop :=
  ∀ t ∈ s.issued, ∀ t' ∈ s.issued, sha256Hex t.text = sha256Hex t'.text → t.text = t'.text

/-- `authenticate` takes the token for an access token: it is a refresh token or one for web sockets,
it has not expired, and the row of its user is active and has its `session_version`. -/
def TakenForAccess (users : String → Option AccountRow) (now : ℤ) (t : IssuedToken) : Prop :=
  (t.issuer.kind = .refresh ∨ t.issuer.kind = .ws) ∧ now < t.claims.exp ∧
    ∃ user, users t.claims.id = some user ∧ user.status = ACTIVE_STATUS ∧
      t.claims.sessionVersion = some user.sessionVersion

/-- What `jwt.verify` gives for a signed token. -/
theorem jwtVerify_eq_some {text : String} {now : ℤ} {c claims : Claims} (h : decode text = some c) :
    jwtVerify decode text now = some claims ↔ now < c.exp ∧ claims = c := by
  unfold jwtVerify
  rw [h]
  simp only [Option.filter_eq_some_iff, Option.some.injEq, decide_eq_true_eq]
  constructor
  · rintro ⟨rfl, hexp⟩
    exact ⟨hexp, rfl⟩
  · rintro ⟨hexp, rfl⟩
    exact ⟨rfl, hexp⟩

/-- When `authenticate` accepts a signed token. -/
theorem authenticateAccepts_iff {users : String → Option AccountRow} {text : String} {now : ℤ}
    {c : Claims} (h : decode text = some c) :
    authenticateAccepts decode users text now = true ↔ now < c.exp ∧
      ∃ user, users c.id = some user ∧ user.status = ACTIVE_STATUS ∧
        c.sessionVersion = some user.sessionVersion := by
  unfold authenticateAccepts
  rw [Option.any_eq_true]
  constructor
  · rintro ⟨claims, hverify, haccepts⟩
    obtain ⟨hexp, rfl⟩ := (jwtVerify_eq_some h).1 hverify
    obtain ⟨user, huser, hdecision⟩ := (Option.any_eq_true _ _).1 haccepts
    simp only [Bool.and_eq_true, isLoginBlockedStatus, Bool.not_eq_true', decide_eq_false_iff_not,
      not_not, beq_iff_eq] at hdecision
    exact ⟨hexp, user, huser, hdecision.1, hdecision.2.symm⟩
  · rintro ⟨hexp, user, huser, hstatus, hversion⟩
    refine ⟨c, (jwtVerify_eq_some h).2 ⟨hexp, rfl⟩, (Option.any_eq_true _ _).2 ⟨user, huser, ?_⟩⟩
    simp [isLoginBlockedStatus, hstatus, hversion]

/-- A consumer that looks at the type accepts only tokens of that type. -/
theorem type_of_verifyTempToken {text expectedType : String} {now : ℤ} {c : Claims}
    (h : decode text = some c) (haccepts : verifyTempToken decode text expectedType now = true) :
    c.type = some expectedType := by
  obtain ⟨claims, hverify, htype⟩ := (Option.any_eq_true _ _).1 haccepts
  obtain ⟨-, rfl⟩ := (jwtVerify_eq_some h).1 hverify
  exact beq_iff_eq.1 htype

theorem type_of_wsAccepts {users : String → Option AccountRow} {text : String} {now : ℤ} {c : Claims}
    (h : decode text = some c) (haccepts : wsAccepts decode users text now = true) :
    c.type = some "ws" := by
  obtain ⟨claims, hverify, hchecks⟩ := (Option.any_eq_true _ _).1 haccepts
  obtain ⟨-, rfl⟩ := (jwtVerify_eq_some h).1 hverify
  simp only [Bool.and_eq_true, beq_iff_eq] at hchecks
  exact hchecks.1.2

/-- `SessionService.refresh` accepts only refresh tokens: the hash of the text is that of one. -/
theorem kind_of_refreshAccepts {s : TokenState} (h : TokenInv decode s) (hdistinct : HashesDistinct s)
    {users : String → Option AccountRow} {t : IssuedToken} (ht : t ∈ s.issued)
    (haccepts : refreshAccepts decode s.sessions users t.text = true) : t.issuer.kind = .refresh := by
  unfold refreshAccepts at haccepts
  rw [Bool.and_eq_true] at haccepts
  obtain ⟨row, hrow, -⟩ := (Option.any_eq_true _ _).1 haccepts.2
  have hhash := List.find?_some hrow
  simp only [decide_eq_true_eq] at hhash
  obtain ⟨t', ht', hkind, hstored⟩ := h.sessions row (List.mem_of_find?_eq_some hrow)
  have htext : t.text = t'.text := hdistinct t ht t' ht' (hhash.1.symm.trans hstored)
  -- One text has one set of claims, and `rememberMe` among them tells the kind.
  have hclaims : t.claims = t'.claims := by
    have hdecode := h.decodes t ht
    rw [htext, h.decodes t' ht'] at hdecode
    exact (Option.some.inj hdecode).symm
  rw [← t.rememberMe_isSome, hclaims]
  exact t'.rememberMe_isSome.2 hkind

/-- Where the types of two kinds are the same text, the kinds are the same. -/
theorem TokenKind.eq_of_type {k k' : TokenKind} {type : String} (h : k.type = some type)
    (h' : k'.type = some type) : k = k' := by
  have htypes : k.type = k'.type := h.trans h'.symm
  have hsome : k.type.isSome = true := by rw [h]; rfl
  revert htypes hsome
  cases k <;> cases k' <;> decide

/-- In every reachable state, a consumer that accepts a signed token is of its kind, except that
`authenticate` takes refresh tokens and tokens for web sockets for access tokens. -/
theorem purpose_separated_iff {s : TokenState} (hs : Reachable (tokenStep decode) .init s)
    (hdistinct : HashesDistinct s) {t : IssuedToken} (ht : t ∈ s.issued) (consumer : Consumer)
    (users : String → Option AccountRow) (now : ℤ) :
    (consumer.accepts decode s users t.text now = true → consumer.own = t.issuer.kind) ↔
      ¬ (consumer = .authenticate ∧ TakenForAccess users now t) := by
  have hinv := tokenInv_of_reachable hs
  have hdecode := hinv.decodes t ht
  have hauthenticate : authenticateAccepts decode users t.text now = true ↔ now < t.claims.exp ∧
      ∃ user, users t.claims.id = some user ∧ user.status = ACTIVE_STATUS ∧
        t.claims.sessionVersion = some user.sessionVersion := authenticateAccepts_iff hdecode
  constructor
  · rintro hown ⟨rfl, hkind, hrow⟩
    have hkind' : TokenKind.access = t.issuer.kind := hown (hauthenticate.2 hrow)
    rw [← hkind'] at hkind
    exact absurd hkind (by simp)
  · intro htaken haccepts
    cases consumer with
    | authenticate =>
      have hrow := hauthenticate.1 haccepts
      have hversion : t.claims.sessionVersion ≠ none := by
        obtain ⟨-, user, -, -, hversion⟩ := hrow
        simp [hversion]
      cases hkind : t.issuer.kind with
      | access => rfl
      | refresh => exact absurd ⟨rfl, Or.inl hkind, hrow⟩ htaken
      | ws => exact absurd ⟨rfl, Or.inr hkind, hrow⟩ htaken
      | twoFactorPending => exact absurd (t.sessionVersion_eq_none (Or.inl hkind)) hversion
      | twoFactorSetupPending => exact absurd (t.sessionVersion_eq_none (Or.inr hkind)) hversion
    | authenticateWsRequest =>
      exact TokenKind.eq_of_type rfl (t.type_eq ▸ type_of_wsAccepts hdecode haccepts)
    | twoFactorValidate | twoFactorBackup | twoFactorSetupPending | twoFactorSetupComplete =>
      exact TokenKind.eq_of_type rfl (t.type_eq ▸ type_of_verifyTempToken hdecode haccepts)
    | refresh => exact (kind_of_refreshAccepts hinv hdistinct ht haccepts).symm

/-- A user with an active account. -/
def account : AccountRow := ⟨"user-1", "auditor", "Auditor", "Active", some 1⟩

/-- The refresh token of a login of the user. -/
def loginRefresh : IssuedToken := ⟨"refresh.jwt", .loginRefreshToken account false, 0⟩

/-- The texts of the tokens, and what they decode to. -/
def decodeTexts (text : String) : Option Claims :=
  if text = "refresh.jwt" then some loginRefresh.claims else none

/-- The state after the login: one session, with the hash of the refresh token. -/
def afterLogin : TokenState :=
  ⟨[⟨"user-1", sha256Hex "refresh.jwt", .active⟩], [loginRefresh]⟩

theorem afterLogin_reachable : Reachable (tokenStep decodeTexts) .init afterLogin :=
  ⟨[.issue loginRefresh], rfl⟩

/-- `SessionService.refresh` accepts the refresh token a minute later, and is for such tokens. -/
theorem purpose_separated_refresh :
    Consumer.refresh.accepts decodeTexts afterLogin (fun _ => some account) loginRefresh.text 60 =
        true ∧
      Consumer.refresh.own = loginRefresh.issuer.kind := by
  have haccepts : Consumer.refresh.accepts decodeTexts afterLogin (fun _ => some account)
      loginRefresh.text 60 = true := by
    have hhashable : isHashableRefreshToken "refresh.jwt" = true := by decide
    simp [Consumer.accepts, refreshAccepts, hhashable, afterLogin, loginRefresh, decodeTexts, account,
      IssuedToken.claims, Issuer.claims, refreshClaims]
  have hdistinct : HashesDistinct afterLogin := by
    intro t₁ h₁ t₂ h₂ _
    rw [List.mem_singleton.1 h₁, List.mem_singleton.1 h₂]
  refine ⟨haccepts, (purpose_separated_iff afterLogin_reachable hdistinct (List.mem_singleton.2 rfl)
    .refresh (fun _ => some account) 60).2 (by simp) haccepts⟩

/-- `authenticate` accepts the refresh token of a login a minute later. -/
theorem refresh_token_taken_for_access :
    Reachable (tokenStep decodeTexts) .init afterLogin ∧ loginRefresh ∈ afterLogin.issued ∧
      Consumer.authenticate.accepts decodeTexts afterLogin (fun _ => some account) loginRefresh.text
        60 = true ∧
      Consumer.authenticate.own = .access ∧ loginRefresh.issuer.kind = .refresh ∧
      ¬ (Consumer.authenticate.accepts decodeTexts afterLogin (fun _ => some account)
        loginRefresh.text 60 = true → Consumer.authenticate.own = loginRefresh.issuer.kind) := by
  refine ⟨afterLogin_reachable, List.mem_singleton.2 rfl, rfl, rfl, rfl, fun h => ?_⟩
  exact absurd (h rfl) (by decide)

end AlsaqiBackend.Auth
