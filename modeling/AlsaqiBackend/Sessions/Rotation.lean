import AlsaqiBackend.Lib.Modify
import AlsaqiBackend.Sessions.Service

/-!
# The exchange of refresh tokens, with calls that overlap

Any number of calls of `SessionService.refresh` and of logins run at once, and each of their statements
is a step of its own. `refresh` finds the session by the hash of the presented token, and later writes
the new hash by the id of the session: in between, other calls may find the same session. And a token
is a function of its claims, so two that are signed for the same user in the same second are one text.

`single_use_along` says that each token is exchanged at most once, for another one, as long as neither
happens: whenever a session is written it still holds the presented hash, and no token is stored whose
claims have been stored before.
-/

namespace AlsaqiBackend.Sessions

open AlsaqiBackend.Lib AlsaqiBackend.Auth

/-! ## Calls -/

/-- Where a call of `refresh` stands. -/
inductive RefreshPhase
  /-- Before the lookup. -/
  | called
  /-- The lookup has returned the session, of that user. -/
  | found (session : ℕ) (userId : String)
  /-- The user has been read, and the new refresh token is signed. -/
  | signed (session : ℕ) (claims : Claims)
  /-- The session holds the hash of the new token. -/
  | rotated (claims : Claims)
  /-- The call has returned the token with these claims. -/
  | returned (claims : Claims)
  | rejected (message : String)
  deriving DecidableEq, Repr

structure RefreshCall where
  presented : String
  phase : RefreshPhase
  deriving DecidableEq, Repr

/-- Where a login stands. `AuthService.login` inserts its two rows in one transaction, and
`issueFullTokens` one after the other. -/
inductive LoginPhase
  /-- `AuthService.login` has signed the refresh token. -/
  | loginSigned (claims : Claims)
  /-- `issueFullTokens` has signed the refresh token. -/
  | fullSigned (claims : Claims)
  /-- `issueFullTokens` has inserted the row of `refresh_tokens`. -/
  | fullRecorded (claims : Claims)
  | loggedIn (claims : Claims)
  | failed
  deriving DecidableEq, Repr

/-- The tables, the clock, the calls, and the claims of all refresh tokens whose hash has been put into a
session. -/
structure RotationState where
  db : SessionDb
  now : ℤ
  calls : List RefreshCall
  logins : List LoginPhase
  stored : List Claims
  deriving DecidableEq, Repr

/-- The users that there are, with no session. -/
def RotationState.init (users : List AccountRow) (now : ℤ) : RotationState :=
  ⟨⟨users, [], []⟩, now, [], [], []⟩

inductive RotationAction
  | tick (ms : ℕ)
  /-- A client presents a token. -/
  | call (text : String)
  /-- The lookup of a call returns a session. -/
  | lookup (i session : ℕ)
  /-- The lookup of a call returns nothing, or the token is rejected without one. -/
  | lookupNothing (i : ℕ)
  /-- A call reads the user and signs the new tokens. -/
  | readUser (i : ℕ)
  /-- A call writes the new hash into its session. -/
  | rotateSession (i : ℕ)
  /-- A call writes `refresh_tokens`, and returns. -/
  | rotateToken (i : ℕ)
  /-- `AuthService.login` has checked the password of a user, and signs the tokens. -/
  | login (userId : String) (rememberMe : Bool)
  /-- The transaction of a login commits, and has terminated the other sessions of the user if that is
  enforced. -/
  | commitLogin (i : ℕ) (enforceSingleSession : Bool)
  /-- `issueFullTokens` signs the tokens of a user. -/
  | issueFullTokens (userId : String)
  | recordToken (i : ℕ)
  | recordSession (i : ℕ)
  /-- Another request terminates sessions. -/
  | terminate (sessions : List ℕ)
  /-- Another request changes the row of a user. -/
  | updateUser (user : AccountRow)
  deriving DecidableEq, Repr

/-! ## Steps -/

namespace RotationState

def setCall (s : RotationState) (i : ℕ) (phase : RefreshPhase) : RotationState :=
  { s with calls := s.calls.modify i fun call => { call with phase := phase } }

def setLogin (s : RotationState) (i : ℕ) (phase : LoginPhase) : RotationState :=
  { s with logins := s.logins.set i phase }

end RotationState

variable (sign : Claims → String) (decode : String → Option Claims)

/-- The hash of the refresh token with these claims. -/
def tokenHash (claims : Claims) : String := sha256Hex (sign claims)

/-- The expiry that is recorded for a refresh token at the time `now`. -/
def recordedExpiry (now : ℤ) (claims : Claims) : ℤ :=
  now + refreshLifetime (claims.rememberMe.getD false)

/-- A call reads the user of its session, checks the row, and signs the new refresh token. -/
def signPhase (s : RotationState) (text : String) (session : ℕ) (userId : String) : RefreshPhase :=
  match checkUser decode s.db text userId with
  | .error message => .rejected message
  | .ok (user, rememberMe) =>
    let claims := refreshClaims user rememberMe (s.now / 1000)
    match hashRefreshToken (sign claims) with
    | .error message => .rejected message
    | .ok _ => .signed session claims

/-- A login signs the refresh token; the hash of a text that is not hashable throws. -/
def signLogin (phase : Claims → LoginPhase) (claims : Claims) : LoginPhase :=
  match hashRefreshToken (sign claims) with
  | .error _ => .failed
  | .ok _ => phase claims

/-- One step; `none` when the action is not possible. -/
def rotationStep (s : RotationState) : RotationAction → Option RotationState
  | .tick ms => some { s with now := s.now + ms }
  | .call text => some { s with calls := s.calls ++ [⟨text, .called⟩] }
  | .lookup i session =>
    match s.calls[i]? with
    | some ⟨text, .called⟩ =>
      (hashPresentedRefreshToken text).bind fun hash => (s.db.lookup hash session).map fun row =>
        s.setCall i (.found session row.userId)
    | _ => none
  | .lookupNothing i =>
    match s.calls[i]? with
    | some ⟨text, .called⟩ =>
      if (hashPresentedRefreshToken text).any fun hash =>
          (List.range s.db.sessions.length).any (s.db.holds hash) then none
      else some (s.setCall i (.rejected "Invalid session"))
    | _ => none
  | .readUser i =>
    match s.calls[i]? with
    | some ⟨text, .found session userId⟩ =>
      some (s.setCall i (signPhase sign decode s text session userId))
    | _ => none
  | .rotateSession i =>
    match s.calls[i]? with
    | some ⟨_, .signed session claims⟩ =>
      some { s.setCall i (.rotated claims) with
        db := s.db.rotateSession session (tokenHash sign claims)
        stored := s.stored ++ [claims] }
    | _ => none
  | .rotateToken i =>
    match s.calls[i]? with
    | some ⟨text, .rotated claims⟩ =>
      some { s.setCall i (.returned claims) with
        db := s.db.rotateToken (sha256Hex text) (tokenHash sign claims)
          (recordedExpiry s.now claims) }
    | _ => none
  | .login userId rememberMe =>
    match s.db.user userId with
    | some user =>
      if isLoginBlockedStatus user.status then none
      else some { s with
        logins := s.logins ++
          [signLogin sign .loginSigned (refreshClaims user rememberMe (s.now / 1000))] }
    | none => none
  | .commitLogin i enforceSingleSession =>
    match s.logins[i]? with
    | some (.loginSigned claims) =>
      match s.db.insertLogin claims.id (tokenHash sign claims) (recordedExpiry s.now claims)
          enforceSingleSession with
      | some db => some { s.setLogin i (.loggedIn claims) with db := db, stored := s.stored ++ [claims] }
      | none => some (s.setLogin i .failed)
    | _ => none
  | .issueFullTokens userId =>
    match s.db.user userId with
    | some user => some { s with
        logins := s.logins ++
          [signLogin sign .fullSigned (refreshClaims user false (s.now / 1000))] }
    | none => none
  | .recordToken i =>
    match s.logins[i]? with
    | some (.fullSigned claims) =>
      match s.db.insertToken
          ⟨tokenHash sign claims, claims.id, recordedExpiry s.now claims, false⟩ with
      | some db => some { s.setLogin i (.fullRecorded claims) with db := db }
      | none => some (s.setLogin i .failed)
    | _ => none
  | .recordSession i =>
    match s.logins[i]? with
    | some (.fullRecorded claims) =>
      some { s.setLogin i (.loggedIn claims) with
        db := s.db.insertSession claims.id (tokenHash sign claims)
        stored := s.stored ++ [claims] }
    | _ => none
  | .terminate sessions =>
    some { s with
      db.sessions := s.db.sessions.mapIdx fun k row =>
        if k ∈ sessions then { row with status := .terminated } else row }
  | .updateUser user => some { s with db := s.db.updateUser user.id fun _ => user }

/-! ## What a step does to the hashes -/

/-- The hashes that the sessions hold. -/
def RotationState.hashes (s : RotationState) : List String := s.db.sessions.map SessionRow.refreshToken

/-- The claims of the token that a call has exchanged its own for. -/
def RefreshPhase.exchanged : RefreshPhase → Option Claims
  | .rotated claims | .returned claims => some claims
  | .called | .found _ _ | .signed _ _ | .rejected _ => none

/-- The claims of the refresh token whose hash a step puts into a session. -/
def storing (s : RotationState) : RotationAction → Option Claims
  | .rotateSession i =>
    match s.calls[i]? with
    | some ⟨_, .signed _ claims⟩ => some claims
    | _ => none
  | .commitLogin i _ =>
    match s.logins[i]? with
    | some (.loginSigned claims) =>
      if s.db.refreshTokens.any fun row => row.token = tokenHash sign claims then none else some claims
    | _ => none
  | .recordSession i =>
    match s.logins[i]? with
    | some (.fullRecorded claims) => some claims
    | _ => none
  | _ => none

/-- The step leaves the hashes of the sessions, and what the calls have exchanged, as they are. -/
structure KeepsHashes (s t : RotationState) : Prop where
  hashes : t.hashes = s.hashes
  stored : t.stored = s.stored
  calls : ∀ (i : ℕ) (call : RefreshCall), t.calls[i]? = some call → call.phase.exchanged ≠ none →
    ∃ old, s.calls[i]? = some old ∧ old.presented = call.presented ∧
      old.phase.exchanged = call.phase.exchanged

/-- A call puts the hash of its new token into its session. -/
structure Rotates (s : RotationState) (i : ℕ) (claims : Claims) (t : RotationState) : Prop where
  session : ∃ text session, s.calls[i]? = some ⟨text, .signed session claims⟩ ∧
    t.hashes = s.hashes.set session (tokenHash sign claims)
  stored : t.stored = s.stored ++ [claims]
  calls : t.calls = s.calls.modify i fun call => { call with phase := .rotated claims }

/-- A login adds a session. -/
structure Inserts (s : RotationState) (claims : Claims) (t : RotationState) : Prop where
  hashes : t.hashes = s.hashes ++ [tokenHash sign claims]
  stored : t.stored = s.stored ++ [claims]
  calls : t.calls = s.calls

variable {sign decode}

/-- A phase that is put in place of one with the same exchange. -/
theorem KeepsHashes.setCall {s : RotationState} {i : ℕ} {text : String} {old new : RefreshPhase}
    (hcall : s.calls[i]? = some ⟨text, old⟩)
    (hnew : new.exchanged = none ∨ new.exchanged = old.exchanged) :
    KeepsHashes s (s.setCall i new) where
  hashes := rfl
  stored := rfl
  calls := fun j call hj hexchanged => by
    unfold RotationState.setCall at hj
    rcases getElem?_modify_cases hj with ⟨rfl, old', hold', rfl⟩ | ⟨-, hj⟩
    · obtain rfl := Option.some.inj (hcall.symm.trans hold')
      exact ⟨_, hcall, rfl, (hnew.resolve_left hexchanged).symm⟩
    · exact ⟨call, hj, rfl, rfl⟩

/-- A step that leaves the sessions' hashes, the stored claims and the calls alone. -/
theorem KeepsHashes.of_eq {s t : RotationState} (hhashes : t.hashes = s.hashes)
    (hstored : t.stored = s.stored) (hcalls : t.calls = s.calls) : KeepsHashes s t where
  hashes := hhashes
  stored := hstored
  calls := fun _ call hcall _ => ⟨call, hcalls ▸ hcall, rfl, rfl⟩

/-- The hashes after a rotation. -/
theorem hashes_rotateSession (db : SessionDb) (session : ℕ) (hash : String) :
    (db.rotateSession session hash).sessions.map SessionRow.refreshToken =
      (db.sessions.map SessionRow.refreshToken).set session hash :=
  map_modify_of_forall_eq fun _ => rfl

theorem hashes_terminateWhere (db : SessionDb) (p : SessionRow → Bool) :
    (db.terminateWhere p).sessions.map SessionRow.refreshToken =
      db.sessions.map SessionRow.refreshToken := by
  unfold SessionDb.terminateWhere
  rw [List.map_map]
  refine List.map_congr_left fun row _ => ?_
  rw [Function.comp_apply]
  split <;> rfl

/-- A login that commits adds a session, and one that does not is rolled back because the token is
there. -/
theorem insertLogin_cases (db : SessionDb) (userId hash : String) (expiresAt : ℤ)
    (enforceSingleSession : Bool) :
    (db.refreshTokens.any (fun row => row.token = hash) = true ∧
      db.insertLogin userId hash expiresAt enforceSingleSession = none) ∨
    (db.refreshTokens.any (fun row => row.token = hash) = false ∧
      ∃ db', db.insertLogin userId hash expiresAt enforceSingleSession = some db' ∧
        db'.sessions.map SessionRow.refreshToken =
          db.sessions.map SessionRow.refreshToken ++ [hash]) := by
  generalize hdb : (if enforceSingleSession then
      db.terminateWhere fun row => row.userId = userId ∧ row.status = .active
    else db) = db'
  have htokens : db'.refreshTokens = db.refreshTokens := by
    rw [← hdb]
    split <;> rfl
  have hhashes : db'.sessions.map SessionRow.refreshToken =
      db.sessions.map SessionRow.refreshToken := by
    rw [← hdb]
    split
    · exact hashes_terminateWhere _ _
    · rfl
  unfold SessionDb.insertLogin SessionDb.insertToken
  simp only [hdb, htokens]
  cases db.refreshTokens.any fun row => row.token = hash with
  | true => exact Or.inl ⟨rfl, rfl⟩
  | false =>
    refine Or.inr ⟨rfl, _, rfl, ?_⟩
    show (db'.sessions ++ [_]).map SessionRow.refreshToken = _
    rw [List.map_append, hhashes]
    rfl

theorem signPhase_exchanged {s : RotationState} {text userId : String} {session : ℕ} :
    (signPhase sign decode s text session userId).exchanged = none := by
  unfold signPhase
  split
  · rfl
  · dsimp only
    split <;> rfl

/-- What a step can do to the hashes: nothing, a rotation, or a new session. -/
theorem rotationStep_cases {s t : RotationState} {a : RotationAction}
    (h : rotationStep sign decode s a = some t) :
    KeepsHashes s t ∨
      (∃ i claims, a = .rotateSession i ∧ storing sign s a = some claims ∧ Rotates sign s i claims t) ∨
      ∃ claims, storing sign s a = some claims ∧ Inserts sign s claims t := by
  unfold rotationStep at h
  cases a with
  | tick ms =>
    obtain rfl := Option.some.inj h
    exact Or.inl (.of_eq rfl rfl rfl)
  | call text =>
    obtain rfl := Option.some.inj h
    refine Or.inl ⟨rfl, rfl, fun i call hcall hexchanged => ?_⟩
    rcases getElem?_concat_cases hcall with hcall | ⟨-, rfl⟩
    · exact ⟨call, hcall, rfl, rfl⟩
    · exact absurd rfl hexchanged
  | lookup i session =>
    dsimp only at h
    split at h
    · next text hcall =>
      obtain ⟨hash, -, hmap⟩ := Option.bind_eq_some_iff.1 h
      obtain ⟨row, -, rfl⟩ := Option.map_eq_some_iff.1 hmap
      exact Or.inl (.setCall hcall (Or.inl rfl))
    · cases h
  | lookupNothing i =>
    dsimp only at h
    split at h
    · next text hcall =>
      split_ifs at h
      obtain rfl := Option.some.inj h
      exact Or.inl (.setCall hcall (Or.inl rfl))
    · cases h
  | readUser i =>
    dsimp only at h
    split at h
    · next text session userId hcall =>
      obtain rfl := Option.some.inj h
      exact Or.inl (.setCall hcall (Or.inl signPhase_exchanged))
    · cases h
  | rotateSession i =>
    dsimp only at h
    split at h
    · next text session claims hcall =>
      obtain rfl := Option.some.inj h
      -- This is the statement that exchanges a hash for another one.
      refine Or.inr (Or.inl ⟨i, claims, rfl, ?_, ⟨text, session, hcall, ?_⟩, rfl, rfl⟩)
      · simp only [storing, hcall]
      · exact hashes_rotateSession _ _ _
    · cases h
  | rotateToken i =>
    dsimp only at h
    split at h
    · next text claims hcall =>
      obtain rfl := Option.some.inj h
      -- The table of the tokens has no part in the hashes of the sessions.
      have hkeeps : KeepsHashes s (s.setCall i (.returned claims)) := .setCall hcall (Or.inr rfl)
      refine Or.inl ⟨?_, rfl, hkeeps.calls⟩
      unfold RotationState.hashes
      rw [(rotateToken_keeps _ _ _ _).2]
    · cases h
  | login userId rememberMe =>
    dsimp only at h
    split at h
    · split_ifs at h
      obtain rfl := Option.some.inj h
      exact Or.inl (.of_eq rfl rfl rfl)
    · cases h
  | commitLogin i enforceSingleSession =>
    dsimp only at h
    split at h
    · next claims hlogin =>
      rcases insertLogin_cases s.db claims.id (tokenHash sign claims) (recordedExpiry s.now claims)
        enforceSingleSession with ⟨hany, hrows⟩ | ⟨hany, db, hrows, hhashes⟩
      · rw [hrows] at h
        obtain rfl := Option.some.inj h
        exact Or.inl (.of_eq rfl rfl rfl)
      · rw [hrows] at h
        obtain rfl := Option.some.inj h
        refine Or.inr (Or.inr ⟨claims, ?_, hhashes, rfl, rfl⟩)
        simp [storing, hlogin, hany]
    · cases h
  | issueFullTokens userId =>
    dsimp only at h
    split at h
    · obtain rfl := Option.some.inj h
      exact Or.inl (.of_eq rfl rfl rfl)
    · cases h
  | recordToken i =>
    dsimp only at h
    split at h
    · split at h
      · next db hinsert =>
        obtain rfl := Option.some.inj h
        refine Or.inl (.of_eq ?_ rfl rfl)
        unfold RotationState.hashes
        rw [insertToken_eq_some hinsert]
      · obtain rfl := Option.some.inj h
        exact Or.inl (.of_eq rfl rfl rfl)
    · cases h
  | recordSession i =>
    dsimp only at h
    split at h
    · next claims hlogin =>
      obtain rfl := Option.some.inj h
      refine Or.inr (Or.inr ⟨claims, ?_, ?_, rfl, rfl⟩)
      · simp only [storing, hlogin]
      · exact List.map_append
    · cases h
  | terminate sessions =>
    obtain rfl := Option.some.inj h
    refine Or.inl (.of_eq ?_ rfl rfl)
    -- A session that is terminated keeps its hash.
    unfold RotationState.hashes
    apply List.ext_getElem?
    intro k
    simp only [List.getElem?_map, List.getElem?_mapIdx, Option.map_map]
    congr 1
    funext row
    rw [Function.comp_apply]
    split <;> rfl
  | updateUser user =>
    obtain rfl := Option.some.inj h
    exact Or.inl (.of_eq rfl rfl rfl)

/-! ## Single use -/

variable (sign)

/-- Each token is exchanged at most once, for another one, and is rejected from then on. -/
structure SingleUse (s : RotationState) : Prop where
  once : ∀ (i j : ℕ) (text : String) (c c' : Claims), s.calls[i]? = some ⟨text, .returned c⟩ →
    s.calls[j]? = some ⟨text, .returned c'⟩ → i = j
  differs : ∀ (text : String) (c : Claims), ⟨text, .returned c⟩ ∈ s.calls → sign c ≠ text
  rejected : ∀ (text : String) (c : Claims), ⟨text, .returned c⟩ ∈ s.calls →
    ∀ session, s.db.holds (sha256Hex text) session = false

/-- The session that a call writes still holds the hash of the token that the call was given. -/
def stillHolds (s : RotationState) : RotationAction → Bool
  | .rotateSession i =>
    match s.calls[i]? with
    | some ⟨text, .signed session _⟩ => s.hashes[session]? = some (sha256Hex text)
    | _ => true
  | _ => true

/-- A session that is written still holds the presented hash, and no refresh token with the same claims
has been put into a session before. -/
def Uncontended (s : RotationState) (a : RotationAction) : Prop :=
  stillHolds s a = true ∧ ∀ c ∈ storing sign s a, c ∉ s.stored

instance (s : RotationState) (a : RotationAction) : Decidable (Uncontended sign s a) :=
  inferInstanceAs (Decidable (_ ∧ _))

/-- The claims `K` are those of all tokens that are stored. The hashes of the sessions are different,
and a token that has been exchanged is held by none. -/
structure RotationInv (K : List Claims) (s : RotationState) : Prop where
  known : ∀ c ∈ s.stored, c ∈ K
  held : ∀ hash ∈ s.hashes, ∃ c ∈ s.stored, tokenHash sign c = hash
  nodup : s.hashes.Nodup
  gone : ∀ (i : ℕ) (call : RefreshCall), s.calls[i]? = some call → call.phase.exchanged ≠ none →
    sha256Hex call.presented ∉ s.hashes ∧ ∃ c ∈ s.stored, tokenHash sign c = sha256Hex call.presented
  changed : ∀ (i : ℕ) (call : RefreshCall) (c : Claims), s.calls[i]? = some call →
    call.phase.exchanged = some c → tokenHash sign c ≠ sha256Hex call.presented
  once : ∀ (i j : ℕ) (a b : RefreshCall), s.calls[i]? = some a → s.calls[j]? = some b →
    a.phase.exchanged ≠ none → b.phase.exchanged ≠ none → a.presented = b.presented → i = j

variable {sign} {K : List Claims} {s t : RotationState}

/-- A session that holds a hash has it among the hashes. -/
theorem mem_hashes_of_holds {hash : String} {session : ℕ} (h : s.db.holds hash session = true) :
    hash ∈ s.hashes := by
  obtain ⟨row, hrow, hhash⟩ := (Option.any_eq_true _ _).1 h
  simp only [decide_eq_true_eq] at hhash
  exact List.mem_map.2 ⟨row, List.mem_of_getElem? hrow, hhash.1⟩

theorem RotationInv.singleUse (h : RotationInv sign K s) : SingleUse sign s where
  once := fun i j text c c' hi hj => h.once i j _ _ hi hj (by simp [RefreshPhase.exchanged])
    (by simp [RefreshPhase.exchanged]) rfl
  differs := fun text c hmem htext => by
    obtain ⟨i, hi⟩ := List.mem_iff_getElem?.1 hmem
    refine h.changed i _ c hi rfl ?_
    unfold tokenHash
    rw [htext]
  rejected := fun text c hmem session => by
    obtain ⟨i, hi⟩ := List.mem_iff_getElem?.1 hmem
    by_contra hholds
    rw [Bool.not_eq_false] at hholds
    exact (h.gone i _ hi (by simp [RefreshPhase.exchanged])).1 (mem_hashes_of_holds hholds)

theorem RotationInv.keeps (h : RotationInv sign K s) (hkeeps : KeepsHashes s t) :
    RotationInv sign K t where
  known := hkeeps.stored ▸ h.known
  held := hkeeps.hashes ▸ hkeeps.stored ▸ h.held
  nodup := hkeeps.hashes ▸ h.nodup
  gone := fun i call hi hexchanged => by
    obtain ⟨old, hold, hpresented, hphase⟩ := hkeeps.calls i call hi hexchanged
    rw [hkeeps.hashes, hkeeps.stored, ← hpresented]
    exact h.gone i old hold (hphase ▸ hexchanged)
  changed := fun i call c hi hexchanged => by
    obtain ⟨old, hold, hpresented, hphase⟩ := hkeeps.calls i call hi (by simp [hexchanged])
    rw [← hpresented]
    exact h.changed i old c hold (hphase.trans hexchanged)
  once := fun i j a b hi hj ha hb hpresented => by
    obtain ⟨olda, hi', ha', hphasea⟩ := hkeeps.calls i a hi ha
    obtain ⟨oldb, hj', hb', hphaseb⟩ := hkeeps.calls j b hj hb
    refine h.once i j olda oldb hi' hj' (hphasea ▸ ha) (hphaseb ▸ hb) ?_
    rw [ha', hb', hpresented]

/-- The hash of a token with new claims is none of those that have been stored. -/
theorem RotationInv.hash_new (h : RotationInv sign K s)
    (hinj : ∀ c ∈ K, ∀ c' ∈ K, tokenHash sign c = tokenHash sign c' → c = c') {claims : Claims}
    (hmem : claims ∈ K) (hnew : claims ∉ s.stored) :
    ∀ c ∈ s.stored, tokenHash sign c ≠ tokenHash sign claims := by
  intro c hc heq
  rw [hinj c (h.known c hc) claims hmem heq] at hc
  exact hnew hc

/-- A token with known claims is stored besides the others. -/
theorem RotationInv.known_stored (h : RotationInv sign K s) {claims : Claims} (hmem : claims ∈ K)
    (hstored : t.stored = s.stored ++ [claims]) : ∀ c ∈ t.stored, c ∈ K := by
  intro c hc
  rw [hstored] at hc
  rcases List.mem_append.1 hc with hc | hc
  · exact h.known c hc
  · exact List.mem_singleton.1 hc ▸ hmem

/-- The sessions then hold hashes of stored tokens, if the only new hash is that of the new token. -/
theorem RotationInv.held_stored (h : RotationInv sign K s) {claims : Claims}
    (hstored : t.stored = s.stored ++ [claims])
    (hhashes : ∀ hash ∈ t.hashes, hash ∈ s.hashes ∨ hash = tokenHash sign claims) :
    ∀ hash ∈ t.hashes, ∃ c ∈ t.stored, tokenHash sign c = hash := by
  intro hash hin
  rw [hstored]
  rcases hhashes hash hin with hin | rfl
  · obtain ⟨c, hc, heq⟩ := h.held hash hin
    exact ⟨c, List.mem_append_left _ hc, heq⟩
  · exact ⟨claims, List.mem_append_right _ (List.mem_singleton_self claims), rfl⟩

/-- A rotation of a session that holds the presented hash, to a token with new claims. -/
theorem RotationInv.rotates (h : RotationInv sign K s)
    (hinj : ∀ c ∈ K, ∀ c' ∈ K, tokenHash sign c = tokenHash sign c' → c = c') {i : ℕ} {claims : Claims}
    (hmem : claims ∈ K) (hnew : claims ∉ s.stored) (hholds : stillHolds s (.rotateSession i) = true)
    (hrotates : Rotates sign s i claims t) : RotationInv sign K t := by
  have hhash := h.hash_new hinj hmem hnew
  obtain ⟨⟨text, session, hcall, hhashes⟩, hstored, hcalls⟩ := hrotates
  have hpresented : s.hashes[session]? = some (sha256Hex text) := by
    simpa [stillHolds, hcall] using hholds
  have hold : sha256Hex text ∈ s.hashes := List.mem_of_getElem? hpresented
  have hnotMem : tokenHash sign claims ∉ s.hashes := fun hin => by
    obtain ⟨c, hc, heq⟩ := h.held _ hin
    exact hhash c hc heq
  have hmono : ∀ c ∈ s.stored, c ∈ t.stored := fun c hc => hstored ▸ List.mem_append_left _ hc
  -- A call of the new state is the one that rotates, or an old one.
  have hcase : ∀ (j : ℕ) (call : RefreshCall), t.calls[j]? = some call →
      (j = i ∧ call = ⟨text, .rotated claims⟩) ∨ (j ≠ i ∧ s.calls[j]? = some call) := by
    intro j call hj
    rw [hcalls] at hj
    rcases getElem?_modify_cases hj with ⟨rfl, old, hold, rfl⟩ | hother
    · obtain rfl := Option.some.inj (hcall.symm.trans hold)
      exact Or.inl ⟨rfl, rfl⟩
    · exact Or.inr hother
  -- An old call that has exchanged its token has not had the one of the call that rotates.
  have hother : ∀ (j : ℕ) (call : RefreshCall), s.calls[j]? = some call → call.phase.exchanged ≠ none →
      call.presented ≠ text := by
    intro j call hj hexchanged heq
    exact (h.gone j call hj hexchanged).1 (heq ▸ hold)
  refine ⟨h.known_stored hmem hstored, ?_, ?_, ?_, ?_, ?_⟩
  · refine h.held_stored hstored fun hash hin => ?_
    rw [hhashes] at hin
    exact List.mem_or_eq_of_mem_set hin
  · rw [hhashes]
    exact h.nodup.set hnotMem
  · intro j call hj hexchanged
    rw [hhashes]
    rcases hcase j call hj with ⟨rfl, rfl⟩ | ⟨-, hj⟩
    · refine ⟨notMem_set_of_nodup h.nodup hpresented fun heq => hnotMem (heq ▸ hold), ?_⟩
      obtain ⟨c, hc, heq⟩ := h.held _ hold
      exact ⟨c, hmono c hc, heq⟩
    · obtain ⟨hgone, c, hc, heq⟩ := h.gone j call hj hexchanged
      refine ⟨fun hin => ?_, c, hmono c hc, heq⟩
      rcases List.mem_or_eq_of_mem_set hin with hin | heq'
      · exact hgone hin
      · exact hhash c hc (heq.trans heq')
  · intro j call c hj hexchanged
    rcases hcase j call hj with ⟨rfl, rfl⟩ | ⟨-, hj⟩
    · obtain rfl : claims = c := Option.some.inj hexchanged
      exact fun heq => hnotMem (heq ▸ hold)
    · exact h.changed j call c hj hexchanged
  · intro j k a b hj hk ha hb hpresented
    rcases hcase j a hj with ⟨rfl, rfl⟩ | ⟨hji, hj⟩ <;> rcases hcase k b hk with ⟨rfl, rfl⟩ | ⟨hki, hk⟩
    · rfl
    · exact absurd hpresented.symm (hother k b hk hb)
    · exact absurd hpresented (hother j a hj ha)
    · exact h.once j k a b hj hk ha hb hpresented

/-- A login that stores a token with new claims. -/
theorem RotationInv.inserts (h : RotationInv sign K s)
    (hinj : ∀ c ∈ K, ∀ c' ∈ K, tokenHash sign c = tokenHash sign c' → c = c') {claims : Claims}
    (hmem : claims ∈ K) (hnew : claims ∉ s.stored) (hinserts : Inserts sign s claims t) :
    RotationInv sign K t := by
  have hhash := h.hash_new hinj hmem hnew
  obtain ⟨hhashes, hstored, hcalls⟩ := hinserts
  have hmono : ∀ c ∈ s.stored, c ∈ t.stored := fun c hc => hstored ▸ List.mem_append_left _ hc
  refine ⟨h.known_stored hmem hstored, ?_, ?_, ?_, ?_, ?_⟩
  · refine h.held_stored hstored fun hash hin => ?_
    rw [hhashes, List.mem_append, List.mem_singleton] at hin
    exact hin
  · rw [hhashes]
    refine h.nodup.append (List.nodup_singleton _) fun hash hin hin' => ?_
    obtain ⟨c, hc, heq⟩ := h.held hash hin
    exact hhash c hc (heq.trans (List.mem_singleton.1 hin'))
  · intro j call hj hexchanged
    obtain ⟨hgone, c, hc, heq⟩ := h.gone j call (hcalls ▸ hj) hexchanged
    refine ⟨fun hin => ?_, c, hmono c hc, heq⟩
    rw [hhashes] at hin
    rcases List.mem_append.1 hin with hin | hin
    · exact hgone hin
    · exact hhash c hc (heq.trans (List.mem_singleton.1 hin))
  · exact hcalls ▸ h.changed
  · exact hcalls ▸ h.once

/-- A step that meets the condition keeps the invariant. -/
theorem rotationStep_inv
    (hinj : ∀ c ∈ K, ∀ c' ∈ K, tokenHash sign c = tokenHash sign c' → c = c') (s : RotationState)
    (a : RotationAction) (t : RotationState) (h : RotationInv sign K s)
    (hguard : (∀ c ∈ storing sign s a, c ∈ K) ∧ Uncontended sign s a)
    (hstep : rotationStep sign decode s a = some t) : RotationInv sign K t := by
  obtain ⟨hK, hholds, hnew⟩ := hguard
  rcases rotationStep_cases hstep with hkeeps | ⟨i, claims, rfl, hstoring, hrotates⟩ |
    ⟨claims, hstoring, hinserts⟩
  · exact h.keeps hkeeps
  · exact h.rotates hinj (hK claims hstoring) (hnew claims hstoring) hholds hrotates
  · exact h.inserts hinj (hK claims hstoring) (hnew claims hstoring) hinserts

theorem RotationState.init_inv (users : List AccountRow) (now : ℤ) :
    RotationInv sign K (.init users now) := by
  refine ⟨fun c hc => ?_, fun hash hin => ?_, List.nodup_nil, fun i call hi => ?_, fun i call c hi => ?_,
    fun i j a b hi => ?_⟩
  · exact absurd hc List.not_mem_nil
  · exact absurd hin List.not_mem_nil
  · exact absurd (List.mem_of_getElem? hi) List.not_mem_nil
  · exact absurd (List.mem_of_getElem? hi) List.not_mem_nil
  · exact absurd (List.mem_of_getElem? hi) List.not_mem_nil

/-- Along every run in which sessions are only written while they hold the presented hash, and no two
stored refresh tokens have the same claims, each refresh token is exchanged at most once. `K` has the
claims of the run, and their hashes are different. -/
theorem single_use_along
    (hinj : ∀ c ∈ K, ∀ c' ∈ K, tokenHash sign c = tokenHash sign c' → c = c')
    (users : List AccountRow) (now : ℤ) {as : List RotationAction}
    (hK : Guarded (rotationStep sign decode) (fun s a => ∀ c ∈ storing sign s a, c ∈ K)
      (.init users now) as)
    (h : Guarded (rotationStep sign decode) (Uncontended sign) (.init users now) as) :
    Along (rotationStep sign decode) (SingleUse sign) (.init users now) as :=
  along_of_guarded (fun _ => RotationInv.singleUse) (rotationStep_inv hinj)
    (RotationState.init_inv users now) (hK.and h)

/-- A login, and five seconds later two refreshes with its token, one after the other. -/
def refreshTwice : List RotationAction :=
  [.login "user-1" false, .commitLogin 0 false, .tick 5000, .call (signText (claimsAt 0)), .lookup 0 0,
    .readUser 0, .rotateSession 0, .rotateToken 0, .call (signText (claimsAt 0)), .lookupNothing 1]

/-- The first refresh gives a new token, and the second one is rejected. -/
theorem single_use_of_refreshTwice :
    Along (rotationStep signText decodeText) (SingleUse signText) (.init [account] 0) refreshTwice ∧
      (run (rotationStep signText decodeText) (.init [account] 0) refreshTwice).map
          RotationState.calls =
        some [⟨signText (claimsAt 0), .returned (claimsAt 5)⟩,
          ⟨signText (claimsAt 0), .rejected "Invalid session"⟩] := by
  refine ⟨single_use_along (K := [claimsAt 0, claimsAt 5]) ?_ _ _ ?_ ?_, ?_⟩
  · decide +kernel
  · decide +kernel
  · decide +kernel
  · decide +kernel

/-- A login, and five seconds later two calls with its token that both find the session before either
writes it. -/
def overlappingRefreshes : List RotationAction :=
  [.login "user-1" false, .commitLogin 0 false, .tick 5000, .call (signText (claimsAt 0)),
    .call (signText (claimsAt 0)), .lookup 0 0, .lookup 1 0, .readUser 0, .rotateSession 0,
    .rotateToken 0, .tick 1000, .readUser 1, .rotateSession 1, .rotateToken 1]

/-- A login, and two calls one after the other in the same second. -/
def refreshesInOneSecond : List RotationAction :=
  [.login "user-1" false, .commitLogin 0 false, .tick 200, .call (signText (claimsAt 0)), .lookup 0 0,
    .readUser 0, .rotateSession 0, .rotateToken 0, .tick 200, .call (signText (claimsAt 0)), .lookup 1 0,
    .readUser 1, .rotateSession 1, .rotateToken 1]

/-- One token is exchanged twice by calls that overlap; and in the second in which it was issued it is
exchanged for itself, and again. -/
theorem refresh_token_exchanged_twice :
    (∃ s, run (rotationStep signText decodeText) (.init [account] 0) overlappingRefreshes = some s ∧
      s.calls = [⟨signText (claimsAt 0), .returned (claimsAt 5)⟩,
        ⟨signText (claimsAt 0), .returned (claimsAt 6)⟩] ∧ ¬ SingleUse signText s) ∧
    ∃ s, run (rotationStep signText decodeText) (.init [account] 0) refreshesInOneSecond = some s ∧
      s.calls = [⟨signText (claimsAt 0), .returned (claimsAt 0)⟩,
        ⟨signText (claimsAt 0), .returned (claimsAt 0)⟩] ∧ ¬ SingleUse signText s := by
  constructor
  · have hrun : (run (rotationStep signText decodeText) (.init [account] 0) overlappingRefreshes).map
        RotationState.calls = some [⟨signText (claimsAt 0), .returned (claimsAt 5)⟩,
          ⟨signText (claimsAt 0), .returned (claimsAt 6)⟩] := by decide +kernel
    obtain ⟨s, hs, hcalls⟩ := Option.map_eq_some_iff.1 hrun
    refine ⟨s, hs, hcalls, fun h => ?_⟩
    have honce : 0 = 1 := h.once 0 1 _ _ _ (by rw [hcalls]; rfl) (by rw [hcalls]; rfl)
    cases honce
  · have hrun : (run (rotationStep signText decodeText) (.init [account] 0) refreshesInOneSecond).map
        RotationState.calls = some [⟨signText (claimsAt 0), .returned (claimsAt 0)⟩,
          ⟨signText (claimsAt 0), .returned (claimsAt 0)⟩] := by decide +kernel
    obtain ⟨s, hs, hcalls⟩ := Option.map_eq_some_iff.1 hrun
    refine ⟨s, hs, hcalls, fun h => ?_⟩
    exact h.differs _ (claimsAt 0) (by rw [hcalls]; exact List.mem_cons_self) rfl

end AlsaqiBackend.Sessions
