import AlsaqiBackend.Auth.Tokens
import AlsaqiBackend.Lib.Run
import AlsaqiBackend.Lib.Separator

/-!
# Upgrades to web sockets

The handler of `upgrade` looks at the number of all clients, authenticates the request, which reads the
database, and then looks at the number of clients of the user and registers the new one. Any number of
upgrades can be between the two looks.

`capped_along_iff`: the caps hold in every state of a run exactly when no upgrade is completed while the
cap of all clients has been reached. `capped_of_room`: they do if each upgrade that passes the first
look leaves room for those that are still being authenticated. The cap of a user needs neither
(`Admitted`), as its look and the registration are one step.
-/

namespace AlsaqiBackend.Ws

open AlsaqiBackend.Lib AlsaqiBackend.Auth

/-! ## Authentication -/

/-- The headers of an upgrade that are read; `none` for one that is no text. -/
structure UpgradeRequest where
  authorization : Option (List Char)
  secWebsocketProtocol : Option (List Char)
  deriving DecidableEq, Repr

/-- The token of `Authorization: Bearer <token>`. -/
def bearerToken (header : List Char) : Option (List Char) :=
  match header.splitOn ' ' with
  | [scheme, token] => if scheme = "Bearer".toList ∧ token ≠ [] then some token else none
  | _ => none

/-- The token of `Sec-WebSocket-Protocol: bearer, <token>`, or of `<token>` alone. -/
def protocolToken (header : List Char) : Option (List Char) :=
  match ((header.splitOn ',').map trimJs).filter (· ≠ []) with
  | [] => none
  | [token] => some token
  | scheme :: token :: _ => if scheme.map Char.toLower = "bearer".toList then some token else none

def extractToken (request : UpgradeRequest) : Option (List Char) :=
  match request.authorization.bind bearerToken with
  | some token => some token
  | none => request.secWebsocketProtocol.bind protocolToken

structure WsAuthPayload where
  id : String
  username : String
  role : String
  deriving DecidableEq, Repr

/-- `authenticateWsRequest` up to its read of the user. `verify` stands for `jwt.verify` at a time, and
is `none` where it throws. -/
def wsClaims (verify : ℤ → List Char → Option Claims) (now : ℤ) (request : UpgradeRequest) : Option Claims :=
  ((extractToken request).bind (verify now)).filter fun claims => claims.id != "" && claims.type == some "ws"

/-- The rest of it, with the answer of the database. -/
def wsPayload (users : String → Except Unit (Option AccountRow)) (claims : Claims) : Option WsAuthPayload :=
  match users claims.id with
  | .error _ => none
  | .ok none => none
  | .ok (some user) =>
    if isLoginBlockedStatus user.status then none
    else if claims.sessionVersion.all (· == user.sessionVersion) then some ⟨user.id, user.username, user.role⟩
    else none

/-! ## The handler -/

def MAX_CONNECTIONS_PER_USER : ℕ := 5

def MAX_TOTAL_CONNECTIONS : ℕ := 10000

/-- How an upgrade ends. A rejection for capacity has the number of clients that was looked at. -/
inductive UpgradeOutcome where
  /-- 503. -/
  | serviceUnavailable (total : ℕ)
  /-- 401. -/
  | unauthorized
  /-- 429. -/
  | tooManyRequests (own : ℕ)
  /-- `handleUpgrade` aborts the handshake. -/
  | aborted
  | connected
  deriving DecidableEq, Repr

/-- The upgrades that are being authenticated, by their sockets, with the claims that are checked;
`wss.clients`, by their sockets, with their `userId`; and how the upgrades have ended. -/
structure WsState (K : Type*) where
  pending : List (K × Option Claims)
  clients : List (K × String)
  outcomes : List (K × UpgradeOutcome)

inductive WsAction (K : Type*) where
  | upgrade (k : K) (now : ℤ) (request : UpgradeRequest)
  /-- The database has answered for an upgrade. The handshake completes or is aborted. -/
  | answer (k : K) (users : String → Except Unit (Option AccountRow)) (completes : Bool)
  | close (k : K)

namespace WsState

variable {K : Type*} [DecidableEq K]

def empty : WsState K := ⟨[], [], []⟩

/-- The loop over `wss.clients`. -/
def userConnectionCount (s : WsState K) (userId : String) : ℕ :=
  (s.clients.filter fun client => client.2 = userId).length

/-- The socket of an upgrade is a new one. -/
def isNew (s : WsState K) (k : K) : Bool :=
  k ∉ s.pending.map Prod.fst ∧ k ∉ s.clients.map Prod.fst ∧ k ∉ s.outcomes.map Prod.fst

/-- An upgrade is no longer pending. -/
def finish (s : WsState K) (k : K) (outcome : UpgradeOutcome) : WsState K :=
  { s with pending := s.pending.filter (·.1 ≠ k), outcomes := (k, outcome) :: s.outcomes }

/-- The handler up to its `await`. -/
def upgradeHandler (verify : ℤ → List Char → Option Claims) (s : WsState K) (k : K) (now : ℤ)
    (request : UpgradeRequest) : WsState K :=
  if MAX_TOTAL_CONNECTIONS ≤ s.clients.length then s.finish k (.serviceUnavailable s.clients.length)
  else { s with pending := (k, wsClaims verify now request) :: s.pending }

/-- The rest of it. -/
def authenticated (s : WsState K) (k : K) (authPayload : Option WsAuthPayload) (completes : Bool) : WsState K :=
  match authPayload with
  | none => s.finish k .unauthorized
  | some payload =>
    if MAX_CONNECTIONS_PER_USER ≤ s.userConnectionCount payload.id then
      s.finish k (.tooManyRequests (s.userConnectionCount payload.id))
    else if completes then { s.finish k .connected with clients := (k, payload.id) :: s.clients }
    else s.finish k .aborted

def step (verify : ℤ → List Char → Option Claims) (s : WsState K) : WsAction K → Option (WsState K)
  | .upgrade k now request => if s.isNew k then some (s.upgradeHandler verify k now request) else none
  | .answer k users completes =>
    (s.pending.find? (·.1 = k)).map fun upgrade => s.authenticated k (upgrade.2.bind (wsPayload users)) completes
  | .close k =>
    if k ∈ s.clients.map Prod.fst then some { s with clients := s.clients.filter (·.1 ≠ k) } else none

end WsState

/-! ## The caps -/

/-- A rejection for capacity has looked at a number that has reached its cap. -/
def UpgradeOutcome.Justified : UpgradeOutcome → Prop
  | .serviceUnavailable total => MAX_TOTAL_CONNECTIONS ≤ total
  | .tooManyRequests own => MAX_CONNECTIONS_PER_USER ≤ own
  | _ => True

/-- What holds in every state: no user has too many clients, and who has been rejected had to be. -/
structure Admitted {K : Type*} (s : WsState K) : Prop where
  perUser : ∀ userId, s.userConnectionCount userId ≤ MAX_CONNECTIONS_PER_USER
  rejected : ∀ outcome ∈ s.outcomes, outcome.2.Justified

/-- The caps hold. -/
structure Capped {K : Type*} (s : WsState K) : Prop extends Admitted s where
  total : s.clients.length ≤ MAX_TOTAL_CONNECTIONS

variable {K : Type*} [DecidableEq K] {verify : ℤ → List Char → Option Claims}

open WsState

/-- The upgrade is pending, and is now authenticated for this user. -/
def Authenticates (s : WsState K) (k : K) (users : String → Except Unit (Option AccountRow))
    (payload : WsAuthPayload) : Prop :=
  ∃ upgrade, s.pending.find? (·.1 = k) = some upgrade ∧ upgrade.2.bind (wsPayload users) = some payload

/-- An upgrade that is not rejected is completed below the cap of all clients. -/
def Timely (s : WsState K) : WsAction K → Prop
  | .answer k users completes =>
    ∀ payload, Authenticates s k users payload →
      s.userConnectionCount payload.id < MAX_CONNECTIONS_PER_USER → completes = true →
        s.clients.length < MAX_TOTAL_CONNECTIONS
  | _ => True

variable {s t : WsState K} {a : WsAction K} {k : K}

/-! ## What one step does -/

/-- The rest of the handler ends the upgrade, and may register its client for a user with room. -/
theorem authenticated_cases (s : WsState K) (k : K) (authPayload : Option WsAuthPayload) (completes : Bool) :
    ∃ outcome : UpgradeOutcome, outcome.Justified ∧
      (s.authenticated k authPayload completes = s.finish k outcome ∨
        ∃ payload, authPayload = some payload ∧ s.userConnectionCount payload.id < MAX_CONNECTIONS_PER_USER ∧
          completes = true ∧ s.authenticated k authPayload completes =
            { s.finish k outcome with clients := (k, payload.id) :: s.clients }) := by
  unfold authenticated
  split
  -- The outcomes are in the order of the checks: 401, 429, and the handshake.
  · exact ⟨.unauthorized, trivial, Or.inl rfl⟩
  next payload =>
  split
  · next hfull => exact ⟨.tooManyRequests (s.userConnectionCount payload.id), hfull, Or.inl rfl⟩
  next hroom =>
  split
  · next hcompletes => exact ⟨.connected, trivial, Or.inr ⟨payload, rfl, not_le.1 hroom, hcompletes, rfl⟩⟩
  · exact ⟨.aborted, trivial, Or.inl rfl⟩

/-- A step leaves the clients, takes some away, or registers one for a user with room. -/
theorem clients_step (hst : step verify s a = some t) :
    t.clients.Sublist s.clients ∨ ∃ k users payload, a = .answer k users true ∧
      Authenticates s k users payload ∧ s.userConnectionCount payload.id < MAX_CONNECTIONS_PER_USER ∧
        t.clients = (k, payload.id) :: s.clients := by
  cases a with
  | upgrade k now request =>
    obtain ⟨-, hst⟩ := Option.ite_none_right_eq_some.1 hst
    obtain rfl := Option.some.inj hst
    refine Or.inl ?_
    unfold upgradeHandler
    split <;> exact List.Sublist.refl _
  | close k =>
    obtain ⟨-, hst⟩ := Option.ite_none_right_eq_some.1 hst
    obtain rfl := Option.some.inj hst
    exact Or.inl List.filter_sublist
  | answer k users completes =>
    obtain ⟨upgrade, hupgrade, rfl⟩ := Option.map_eq_some_iff.1 hst
    obtain ⟨outcome, -, heq | ⟨payload, hpayload, hroom, rfl, heq⟩⟩ :=
      authenticated_cases s k (upgrade.2.bind (wsPayload users)) completes
    · rw [heq]
      exact Or.inl (List.Sublist.refl _)
    · rw [heq]
      exact Or.inr ⟨k, users, payload, rfl, ⟨upgrade, hupgrade, hpayload⟩, hroom, rfl⟩

/-- The new outcome of a step is justified. -/
theorem outcomes_step (hst : step verify s a = some t) :
    t.outcomes = s.outcomes ∨ ∃ k outcome, t.outcomes = (k, outcome) :: s.outcomes ∧ outcome.Justified := by
  cases a with
  | upgrade k now request =>
    obtain ⟨-, hst⟩ := Option.ite_none_right_eq_some.1 hst
    obtain rfl := Option.some.inj hst
    unfold upgradeHandler
    split
    · next hfull => exact Or.inr ⟨k, _, rfl, hfull⟩
    · exact Or.inl rfl
  | close k =>
    obtain ⟨-, hst⟩ := Option.ite_none_right_eq_some.1 hst
    obtain rfl := Option.some.inj hst
    exact Or.inl rfl
  | answer k users completes =>
    obtain ⟨upgrade, hupgrade, rfl⟩ := Option.map_eq_some_iff.1 hst
    obtain ⟨outcome, hjustified, heq | ⟨payload, -, -, -, heq⟩⟩ :=
      authenticated_cases s k (upgrade.2.bind (wsPayload users)) completes
    · rw [heq]
      exact Or.inr ⟨k, outcome, rfl, hjustified⟩
    · rw [heq]
      exact Or.inr ⟨k, outcome, rfl, hjustified⟩

theorem Admitted.step (h : Admitted s) (hst : step verify s a = some t) : Admitted t where
  perUser := by
    intro userId
    obtain hsub | ⟨k, users, payload, -, -, hroom, hclients⟩ := clients_step hst
    · exact le_trans (hsub.filter _).length_le (h.perUser userId)
    · rw [userConnectionCount, hclients, List.filter_cons]
      split
      · next heq =>
        have heq' : payload.id = userId := by simpa using heq
        subst heq'
        exact hroom
      · exact h.perUser userId
  rejected := by
    intro outcome hmem
    obtain heq | ⟨k, new, heq, hnew⟩ := outcomes_step hst
    · exact h.rejected outcome (heq ▸ hmem)
    · rw [heq] at hmem
      obtain rfl | hold := List.mem_cons.1 hmem
      · exact hnew
      · exact h.rejected outcome hold

omit [DecidableEq K] in
theorem admitted_empty : Admitted (empty : WsState K) := ⟨fun _ => Nat.zero_le _, nofun⟩

/-- An upgrade that is not rejected is registered. -/
theorem registered {users : String → Except Unit (Option AccountRow)} {payload : WsAuthPayload}
    (hst : step verify s (.answer k users true) = some t)
    (hpayload : Authenticates s k users payload)
    (hroom : s.userConnectionCount payload.id < MAX_CONNECTIONS_PER_USER) :
    t.clients = (k, payload.id) :: s.clients ∧ t.pending = s.pending.filter (·.1 ≠ k) := by
  obtain ⟨upgrade, hupgrade, hpayload⟩ := hpayload
  simp only [WsState.step, hupgrade, Option.map_some] at hst
  obtain rfl := Option.some.inj hst
  unfold authenticated
  rw [hpayload]
  dsimp only
  rw [if_neg (not_le.2 hroom), if_pos rfl]
  exact ⟨rfl, rfl⟩

/-- A step keeps the caps exactly when it is timely. -/
theorem capped_step_iff (h : Capped s) (hst : step verify s a = some t) : Capped t ↔ Timely s a := by
  constructor
  · intro ht
    cases a with
    | upgrade k now request => trivial
    | close k => trivial
    | answer k users completes =>
      intro payload hpayload hroom hcompletes
      subst hcompletes
      have hlength := congrArg List.length (registered hst hpayload hroom).1
      have htotal := ht.total
      rw [List.length_cons] at hlength
      omega
  · intro htimely
    refine ⟨h.toAdmitted.step hst, ?_⟩
    obtain hsub | ⟨k, users, payload, rfl, hpayload, hroom, hclients⟩ := clients_step hst
    · exact le_trans hsub.length_le h.total
    · have hlt := htimely payload hpayload hroom rfl
      rw [hclients, List.length_cons]
      omega

/-- From no connection, the caps hold in every state of a run exactly when all its steps are timely. -/
theorem capped_along_iff (verify : ℤ → List Char → Option Claims) (as : List (WsAction K)) :
    Along (step verify) Capped empty as ↔ Guarded (step verify) Timely empty as := by
  refine along_iff_guarded (I := fun _ => True) (fun _ _ _ _ _ => trivial) ?_ as trivial ?_
  · intro s a t _ h hst
    exact capped_step_iff h hst
  · exact ⟨admitted_empty, Nat.zero_le _⟩

/-! ## Room for those that are pending -/

/-- An upgrade that passes the first look leaves room for those that are being authenticated. -/
def LeavesRoom (s : WsState K) : WsAction K → Prop
  | .upgrade _ _ _ => s.clients.length < MAX_TOTAL_CONNECTIONS →
      s.clients.length + s.pending.length < MAX_TOTAL_CONNECTIONS
  | _ => True

/-- An upgrade that has been authenticated is no longer pending, and adds one client at most. -/
theorem length_authenticated (s : WsState K) (k : K) (authPayload : Option WsAuthPayload)
    (completes : Bool) : (s.authenticated k authPayload completes).pending = s.pending.filter (·.1 ≠ k) ∧
      (s.authenticated k authPayload completes).clients.length ≤ s.clients.length + 1 := by
  obtain ⟨outcome, -, heq | ⟨payload, -, -, -, heq⟩⟩ := authenticated_cases s k authPayload completes
  · rw [heq]
    exact ⟨rfl, Nat.le_succ _⟩
  · rw [heq]
    exact ⟨rfl, le_refl _⟩

/-- What is pending has a place. -/
structure Roomy (s : WsState K) : Prop extends Admitted s where
  room : s.clients.length + s.pending.length ≤ MAX_TOTAL_CONNECTIONS

theorem Roomy.step (h : Roomy s) (hroom : LeavesRoom s a) (hst : step verify s a = some t) : Roomy t := by
  refine ⟨h.toAdmitted.step hst, ?_⟩
  have hle := h.room
  cases a with
  | upgrade k now request =>
    obtain ⟨-, hst⟩ := Option.ite_none_right_eq_some.1 hst
    obtain rfl := Option.some.inj hst
    unfold upgradeHandler
    split
    · have hfilter : (s.pending.filter (·.1 ≠ k)).length ≤ s.pending.length := List.length_filter_le _ _
      show s.clients.length + (s.pending.filter (·.1 ≠ k)).length ≤ MAX_TOTAL_CONNECTIONS
      omega
    · next hlook =>
      have hlt := hroom (not_le.1 hlook)
      show s.clients.length + (s.pending.length + 1) ≤ MAX_TOTAL_CONNECTIONS
      omega
  | close k =>
    obtain ⟨-, hst⟩ := Option.ite_none_right_eq_some.1 hst
    obtain rfl := Option.some.inj hst
    have hfilter : (s.clients.filter (·.1 ≠ k)).length ≤ s.clients.length := List.length_filter_le _ _
    show (s.clients.filter (·.1 ≠ k)).length + s.pending.length ≤ MAX_TOTAL_CONNECTIONS
    omega
  | answer k users completes =>
    -- the upgrade gives up its place among the pending ones
    obtain ⟨upgrade, hupgrade, rfl⟩ := Option.map_eq_some_iff.1 hst
    obtain ⟨hmem, hkey⟩ := of_find?_key hupgrade
    have hfilter : (s.pending.filter (·.1 ≠ k)).length < s.pending.length :=
      List.length_filter_lt_length_iff_exists.2 ⟨upgrade, hmem, by simp [hkey]⟩
    obtain ⟨hpending, hclients⟩ := length_authenticated s k (upgrade.2.bind (wsPayload users)) completes
    rw [hpending]
    omega

/-- The caps hold along a run in which each upgrade that passes the first look leaves room for the
pending ones. -/
theorem capped_of_room (verify : ℤ → List Char → Option Claims) {as : List (WsAction K)}
    (h : Guarded (step verify) LeavesRoom empty as) : Along (step verify) Capped empty as := by
  refine along_of_guarded (I := Roomy) ?_ (fun s a t hs hC hst => hs.step hC hst) ?_ h
  · intro s hs
    have hle := hs.room
    exact ⟨hs.toAdmitted, by omega⟩
  · exact ⟨admitted_empty, Nat.zero_le _⟩

/-! ## A flood of upgrades -/

/-- The user of the upgrade with this number. -/
def floodUser (k : ℕ) : String := String.ofList (List.replicate (k + 1) 'u')

/-- The claims of a token that is the id of its user. -/
def floodVerify (_now : ℤ) (token : List Char) : Option Claims :=
  some ⟨String.ofList token, "u", none, some "ws", none, none, 0, 30⟩

def floodRequest (k : ℕ) : UpgradeRequest := ⟨none, some (List.replicate (k + 1) 'u')⟩

/-- Every user is active. -/
def floodUsers (id : String) : Except Unit (Option AccountRow) := .ok (some ⟨id, "u", "Auditor", "Active", none⟩)

def upgrades (n : ℕ) : List (WsAction ℕ) := (List.range n).map fun k => .upgrade k 0 (floodRequest k)

def answers (n : ℕ) : List (WsAction ℕ) := (List.range n).map fun k => .answer k floodUsers true

theorem trimJs_replicate (n : ℕ) : trimJs (List.replicate n 'u') = List.replicate n 'u' := by
  have hletter : isJsWhitespace 'u' = false := by decide
  simp [trimJs, hletter]

theorem wsClaims_flood (k : ℕ) : wsClaims floodVerify 0 (floodRequest k) =
    some ⟨floodUser k, "u", none, some "ws", none, none, 0, 30⟩ := by
  have hcomma : ',' ∉ List.replicate (k + 1) 'u' := by simp [List.mem_replicate]
  have htoken : protocolToken (List.replicate (k + 1) 'u') = some (List.replicate (k + 1) 'u') := by
    unfold protocolToken
    rw [List.splitOn_eq_singleton hcomma, List.map_singleton, trimJs_replicate]
    simp
  have hid : floodUser k ≠ "" := by
    intro h
    have hlength := congrArg (List.length ∘ String.toList) h
    simp [floodUser] at hlength
  simp only [wsClaims, extractToken, floodRequest, Option.bind_none, Option.bind_some, htoken, floodVerify]
  rw [← floodUser]
  simp [Option.filter, hid]

theorem floodUser_injective : Function.Injective floodUser := by
  intro j k h
  have hlength := congrArg (List.length ∘ String.toList) h
  simpa [floodUser] using hlength

/-- All the upgrades arrive before one of them has been authenticated: none is rejected. -/
theorem run_upgrades (n : ℕ) : run (step floodVerify) empty (upgrades n) =
    some ⟨((List.range n).map fun k => (k, wsClaims floodVerify 0 (floodRequest k))).reverse, [], []⟩ := by
  induction n with
  | zero => rfl
  | succ n ih =>
    have hnew : isNew ⟨((List.range n).map fun k => (k, wsClaims floodVerify 0 (floodRequest k))).reverse,
        [], []⟩ n = true := by simp [isNew]
    rw [upgrades, List.range_succ, List.map_append, List.map_singleton, run_concat, ← upgrades, ih]
    simp only [Option.bind_some, step, hnew, if_true, upgradeHandler]
    simp [MAX_TOTAL_CONNECTIONS]

/-- Then they are authenticated one after the other, each for a user of its own, and all are registered.
-/
theorem run_answers (n m : ℕ) (h : m ≤ n) : ∃ s,
    run (step floodVerify) empty (upgrades n ++ answers m) = some s ∧
    s.clients = ((List.range m).map fun k => (k, floodUser k)).reverse ∧
    ∀ k, m ≤ k → k < n → s.pending.find? (·.1 = k) = some (k, wsClaims floodVerify 0 (floodRequest k)) := by
  induction m with
  | zero =>
    refine ⟨_, by simpa [answers] using run_upgrades n, rfl, ?_⟩
    intro k _ hk
    refine find?_key_of_mem ?_ ?_ rfl
    · rw [List.map_reverse, List.nodup_reverse, List.map_map]
      exact (List.map_id (List.range n)).symm ▸ List.nodup_range
    · exact List.mem_reverse.2 (List.mem_map.2 ⟨k, List.mem_range.2 hk, rfl⟩)
  | succ m ih =>
    obtain ⟨s, hrun, hclients, hpending⟩ := ih (by omega)
    have hupgrade := hpending m (le_refl m) (by omega)
    have hnone : s.userConnectionCount (floodUser m) = 0 := by
      rw [userConnectionCount, hclients, List.length_eq_zero_iff, List.filter_eq_nil_iff]
      intro client hclient
      obtain ⟨j, hj, rfl⟩ := List.mem_map.1 (List.mem_reverse.1 hclient)
      have hne : j ≠ m := Nat.ne_of_lt (List.mem_range.1 hj)
      simpa using fun heq => hne (floodUser_injective heq)
    have hpayload : (wsClaims floodVerify 0 (floodRequest m)).bind (wsPayload floodUsers) =
        some ⟨floodUser m, "u", "Auditor"⟩ := by
      rw [wsClaims_flood]
      rfl
    obtain ⟨t, hst⟩ : ∃ t, step floodVerify s (.answer m floodUsers true) = some t := by
      simp [step, hupgrade]
    obtain ⟨htclients, htpending⟩ := registered hst ⟨_, hupgrade, hpayload⟩ (by rw [hnone]; decide)
    refine ⟨t, ?_, ?_, ?_⟩
    · rw [answers, List.range_succ, List.map_append, List.map_singleton, ← answers, ← List.append_assoc,
        run_concat, hrun]
      exact hst
    · rw [htclients, hclients, List.range_succ, List.map_append, List.reverse_append]
      rfl
    · intro k hk hkn
      rw [htpending, List.find?_filter, ← hpending k (by omega) hkn]
      congr 1
      funext x
      by_cases hx : x.1 = k
      · simp [hx, show k ≠ m by omega]
      · simp [hx]

/-- With 10,001 upgrades at a time there are 10,001 connections. -/
theorem flood_not_capped : ¬∀ as : List (WsAction ℕ), Along (step floodVerify) Capped empty as := by
  intro h
  obtain ⟨s, hrun, hclients, -⟩ := run_answers (MAX_TOTAL_CONNECTIONS + 1) (MAX_TOTAL_CONNECTIONS + 1) (le_refl _)
  have htotal := ((h _).last hrun).total
  rw [hclients, List.length_reverse, List.length_map, List.length_range] at htotal
  exact absurd htotal (Nat.not_succ_le_self _)

end AlsaqiBackend.Ws
