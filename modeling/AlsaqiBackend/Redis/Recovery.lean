import AlsaqiBackend.Redis.Manager

/-!
# Recovery of the Redis connection

Between `connect()` and `disconnect()` the manager is always on its way back: `never_gives_up` says that a
state that is connecting or degraded has a reconnect timer or one connection attempt, and that no timer is
set beside a live client.

The invariant is `Tracked`: all connections but the last are over, and the last one is in one of four
phases, which fix what the status and the timer can be (`Phase`). Every callback takes a phase to a
phase.
-/

namespace AlsaqiBackend.Redis

open Lib

variable (options : RedisManagerOptions)

/-- The steps without calls of `connect` and `disconnect`. -/
def recoveryStep (s : RedisState) : RedisAction → Option RedisState
  | .callConnect => none
  | .callDisconnect => none
  | action => redisStep options s action

/-- The attempt of a connection is in flight: its promise is pending and so is that of its client, or it
has been rejected and nothing has run on that. -/
def Connection.InFlight (c : Connection) : Prop :=
  c.resumed = false ∧ (c.promise = .pending ∧ c.settling = true ∨ c.promise = .rejected)

/-- The attempt at a place is in flight. -/
def RedisState.AttemptInFlight (s : RedisState) (i : ℕ) : Prop :=
  ∃ c, s.connections[i]? = some c ∧ c.InFlight

/-- There is a live client. -/
def RedisState.HasLiveClient (s : RedisState) : Prop := ∃ c ∈ s.connections, c.live = true

/-- A connection that is over: nothing comes from it any more. -/
structure Connection.Over (c : Connection) : Prop where
  emits : c.emits = false
  live : c.live = false
  timeout : c.timeout = false
  settled : c.promise ≠ .pending
  resumed : c.resumed = true

/-- The phases of the last connection, with the status and the timer in each. -/
inductive Phase (c : Connection) : RedisConnectionStatus → Option ℕ → Prop
  | opening {status : RedisConnectionStatus} :
      c.promise = .pending → c.resumed = false → c.settling = true → c.greeted = false →
        c.live = false → (status = .connecting ∨ status = .degraded) → Phase c status none
  | failed {status : RedisConnectionStatus} :
      c.promise = .rejected → c.resumed = false → c.timeout = false → c.live = false →
        (status = .connecting ∨ status = .degraded) → Phase c status none
  | up : c.promise ≠ .pending → (c.promise = .resolved ∨ c.resumed = true) → c.timeout = false →
      Phase c .connected none
  | lost {delay : ℕ} :
      c.promise ≠ .pending → (c.promise = .resolved ∨ c.resumed = true) → c.timeout = false →
        c.live = false → Phase c .degraded (some delay)

namespace Phase

variable {c : Connection} {status : RedisConnectionStatus} {timer : Option ℕ}

/-- A connected manager is up. -/
theorem of_connected (h : Phase c status timer) (hstatus : status = .connected) :
    timer = none ∧ c.promise ≠ .pending ∧ (c.promise = .resolved ∨ c.resumed = true) ∧
      c.timeout = false := by
  cases h with
  | opening _ _ _ _ _ hst => simp [hstatus] at hst
  | failed _ _ _ _ hst => simp [hstatus] at hst
  | up hp hheard htimeout => exact ⟨rfl, hp, hheard, htimeout⟩
  | lost => cases hstatus

/-- A timer is set after a loss only. -/
theorem of_timer (h : Phase c status timer) (htimer : timer.isSome = true) :
    status = .degraded ∧ c.promise ≠ .pending ∧ (c.promise = .resolved ∨ c.resumed = true) ∧
      c.timeout = false ∧ c.live = false := by
  cases h with
  | opening => cases htimer
  | failed => cases htimer
  | up => cases htimer
  | lost hp hheard htimeout hlive => exact ⟨rfl, hp, hheard, htimeout, hlive⟩

/-- An event that is no `connect` leaves the phase of a manager that is not connected. -/
theorem not_live (h : Phase c status timer) (hstatus : status ≠ .connected) :
    Phase { c with live := false } status timer := by
  cases h with
  | opening hp hresumed hsettling hgreeted _ hst =>
    exact .opening hp hresumed hsettling hgreeted rfl hst
  | failed hp hresumed htimeout _ hst => exact .failed hp hresumed htimeout rfl hst
  | up => exact absurd rfl hstatus
  | lost hp hheard htimeout _ => exact .lost hp hheard htimeout rfl

end Phase

/-- The invariant of the recovery. -/
structure Tracked (s : RedisState) (olds : List Connection) (c : Connection) : Prop where
  connections : s.connections = olds ++ [c]
  client : s.client = some olds.length
  quitting : s.quitting = []
  olds_over : ∀ o ∈ olds, o.Over
  phase : Phase c s.status s.reconnectTimer

variable {options} {s t : RedisState} {olds : List Connection} {c : Connection} {i : ℕ}

/-- A place has an old connection, or the last one. -/
theorem Tracked.get (h : Tracked s olds c) {c' : Connection} (hi : s.connections[i]? = some c') :
    (i < olds.length ∧ c'.Over) ∨ (i = olds.length ∧ c' = c) := by
  rw [h.connections] at hi
  rcases getElem?_concat_cases hi with hold | hlast
  · exact Or.inl ⟨(List.getElem?_eq_some_iff.1 hold).1, h.olds_over c' (List.mem_of_getElem? hold)⟩
  · exact Or.inr hlast

/-- What emits is the last connection. -/
theorem Tracked.of_emits (h : Tracked s olds c) {c' : Connection} (hi : s.connections[i]? = some c')
    (hemits : c'.emits = true) : i = olds.length ∧ c' = c := by
  rcases h.get hi with ⟨-, hover⟩ | hlast
  · rw [hover.emits] at hemits
    cases hemits
  · exact hlast

/-- When nothing is queued, the last promise is pending or has been heard of. -/
theorem Tracked.of_idle (h : Tracked s olds c) (hidle : s.idle = true) :
    c.promise = .pending ∨ c.resumed = true := by
  have hc : c ∈ s.connections := by
    rw [h.connections]
    exact List.mem_append_right _ List.mem_cons_self
  have hqueued := List.all_eq_true.1 hidle c hc
  unfold Connection.queued at hqueued
  simp only [Bool.not_eq_true', Bool.and_eq_false_iff, decide_eq_false_iff_not, not_not,
    Bool.not_eq_false'] at hqueued
  exact hqueued

/-- The last connection is changed. -/
theorem Tracked.change (h : Tracked s olds c) {f : Connection → Connection} {t : RedisState}
    (hconnections : t.connections = s.connections.modify olds.length f) (hclient : t.client = s.client)
    (hquitting : t.quitting = []) (hphase : Phase (f c) t.status t.reconnectTimer) :
    Tracked t olds (f c) := by
  refine ⟨?_, hclient.trans h.client, hquitting, h.olds_over, hphase⟩
  rw [hconnections, h.connections, modify_concat_length]

/-- An old connection is changed, and is still over. -/
theorem Tracked.change_old (h : Tracked s olds c) (hi : i < olds.length) {f : Connection → Connection}
    (hf : ∀ o, o.Over → (f o).Over) :
    Tracked (s.change i f) (olds.modify i f) c := by
  refine ⟨?_, ?_, h.quitting, ?_, h.phase⟩
  · show s.connections.modify i f = _
    rw [h.connections, modify_concat_of_lt hi]
  · show s.client = _
    rw [h.client, List.length_modify]
  · intro o ho
    rcases mem_modify_cases ho with hold | ⟨o', ho', rfl⟩
    · exact h.olds_over o hold
    · exact hf o' (h.olds_over o' ho')

/-! ## Callbacks -/

/-- The handler of `connect`. -/
theorem Tracked.onConnect (h : Tracked s olds c) (hidle : s.idle = true) :
    ∃ c, Tracked (s.onConnect olds.length) olds c := by
  refine ⟨_, h.change rfl rfl h.quitting (.up ?_ ?_ rfl)⟩
  · show c.promise.settle .resolved ≠ .pending
    unfold PromiseState.settle
    split_ifs with hp
    · simp
    · exact hp
  · show c.promise.settle .resolved = .resolved ∨ c.resumed = true
    rcases h.of_idle hidle with hp | hresumed
    · exact Or.inl (if_pos hp)
    · exact Or.inr hresumed

/-- The handlers of `error` and `close`. -/
theorem Tracked.onLoss (h : Tracked s olds c) :
    ∃ c, Tracked (s.onLoss options olds.length) olds c := by
  unfold RedisState.onLoss
  simp only
  split_ifs with hstatus
  · obtain ⟨delay, hdelay⟩ := RedisState.scheduleReconnect_eq options
      { s.change olds.length fun c => { c with live := false } with status := .degraded }
    obtain ⟨-, hp, hheard, htimeout⟩ := h.phase.of_connected hstatus
    rw [hdelay]
    exact ⟨_, h.change rfl rfl h.quitting (.lost hp hheard htimeout rfl)⟩
  · exact ⟨_, h.change rfl rfl h.quitting (h.phase.not_live hstatus)⟩

/-- The client is ready. -/
theorem Tracked.onConnectResolved (h : Tracked s olds c) (hgreeted : c.greeted = true) :
    ∃ c, Tracked (s.change olds.length fun c => { c with settling := false }) olds c := by
  refine ⟨_, h.change rfl rfl h.quitting ?_⟩
  show Phase { c with settling := false } s.status s.reconnectTimer
  have hphase := h.phase
  generalize s.status = status, s.reconnectTimer = timer at hphase
  cases hphase with
  | opening _ _ _ hnot =>
    rw [hgreeted] at hnot
    cases hnot
  | failed hp hresumed htimeout hlive hst => exact .failed hp hresumed htimeout hlive hst
  | up hp hheard htimeout => exact .up hp hheard htimeout
  | lost hp hheard htimeout hlive => exact .lost hp hheard htimeout hlive

/-- A connection attempt is rejected by its client. -/
theorem Tracked.onConnectRejected (h : Tracked s olds c) :
    ∃ c, Tracked (s.change olds.length fun c => { c with
      settling := false
      timeout := false
      promise := c.promise.settle .rejected }) olds c := by
  refine ⟨_, h.change rfl rfl h.quitting ?_⟩
  show Phase { c with settling := false, timeout := false, promise := c.promise.settle .rejected }
    s.status s.reconnectTimer
  have hphase := h.phase
  generalize s.status = status, s.reconnectTimer = timer at hphase
  unfold PromiseState.settle
  cases hphase with
  | opening hp hresumed _ _ hlive hst => exact .failed (by simp [hp]) hresumed rfl hlive hst
  | failed hp hresumed _ hlive hst => exact .failed (by simp [hp]) hresumed rfl hlive hst
  | up hp hheard _ =>
    simp only [if_neg hp]
    exact .up hp hheard rfl
  | lost hp hheard _ hlive =>
    simp only [if_neg hp]
    exact .lost hp hheard rfl hlive

/-- The timeout of the connection fires. -/
theorem Tracked.onTimeout (h : Tracked s olds c) (htimeout : c.timeout = true) :
    ∃ c, Tracked (s.onTimeout olds.length) olds c := by
  unfold RedisState.onTimeout
  split_ifs with hstatus
  · -- The client is disconnected, and then the promise rejected.
    have hphase := h.phase
    generalize htimer : s.reconnectTimer = timer at hphase
    rw [hstatus] at hphase
    cases hphase with
    | opening hp hresumed hsettling hgreeted hlive hst =>
      have hdisconnected : Tracked (s.change olds.length Connection.disconnect) olds c.disconnect := by
        refine h.change rfl rfl h.quitting ?_
        show Phase c.disconnect s.status s.reconnectTimer
        rw [hstatus, htimer]
        exact .opening hp hresumed hsettling hgreeted rfl hst
      rw [RedisState.disconnectClient_of_some h.client]
      refine ⟨_, hdisconnected.change rfl rfl h.quitting ?_⟩
      show Phase _ s.status s.reconnectTimer
      rw [hstatus, htimer]
      exact .failed (if_pos hp) hresumed rfl rfl hst
    | failed _ _ hunset =>
      rw [htimeout] at hunset
      cases hunset
  · refine ⟨_, h.change rfl rfl h.quitting ?_⟩
    show Phase { c with timeout := false } s.status s.reconnectTimer
    have hphase := h.phase
    generalize s.status = status, s.reconnectTimer = timer at hphase
    cases hphase with
    | opening hp hresumed hsettling hgreeted hlive hst =>
      exact .opening hp hresumed hsettling hgreeted hlive hst
    | failed hp hresumed _ hlive hst => exact .failed hp hresumed rfl hlive hst
    | up hp hheard _ => exact .up hp hheard rfl
    | lost hp hheard _ hlive => exact .lost hp hheard rfl hlive

/-- What awaits the promise of the connection runs. -/
theorem Tracked.onResume (h : Tracked s olds c) (hqueued : c.queued = true) :
    ∃ c', Tracked (s.onResume options olds.length c.promise) olds c' := by
  have hunheard : c.promise ≠ .pending ∧ c.resumed = false := by
    unfold Connection.queued at hqueued
    simpa using hqueued
  unfold RedisState.onResume
  simp only
  split_ifs with hrejected
  · -- A failure that has not been heard of: no timer is set.
    obtain ⟨delay, hdelay⟩ := RedisState.scheduleReconnect_eq options
      { s.change olds.length fun c => { c with resumed := true } with status := .degraded }
    have hphase := h.phase
    generalize s.status = status, s.reconnectTimer = timer at hphase
    rw [hdelay]
    refine ⟨_, h.change rfl rfl h.quitting ?_⟩
    show Phase { c with resumed := true } .degraded (some delay)
    cases hphase with
    | opening hp => exact absurd hp hunheard.1
    | failed hp _ htimeout hlive => exact .lost hunheard.1 (Or.inr rfl) htimeout hlive
    | up _ hheard =>
      rw [hrejected, hunheard.2] at hheard
      simp at hheard
    | lost _ hheard =>
      rw [hrejected, hunheard.2] at hheard
      simp at hheard
  · refine ⟨_, h.change rfl rfl h.quitting ?_⟩
    show Phase { c with resumed := true } s.status s.reconnectTimer
    have hphase := h.phase
    generalize s.status = status, s.reconnectTimer = timer at hphase
    cases hphase with
    | opening hp => exact absurd hp hunheard.1
    | failed hp => exact absurd hp hrejected
    | up hp _ htimeout => exact .up hp (Or.inr rfl) htimeout
    | lost hp _ htimeout hlive => exact .lost hp (Or.inr rfl) htimeout hlive

/-- A new connection, from a state in which the last one has been lost. -/
theorem Tracked.createConnection (h : Tracked s olds c) (hidle : s.idle = true)
    (htimer : s.reconnectTimer.isSome = true) (attempts : ℕ) :
    ∃ olds c, Tracked { s with
      reconnectTimer := none
      reconnectAttempts := attempts }.createConnection olds c := by
  obtain ⟨hstatus, hp, -, htimeout, -⟩ := h.phase.of_timer htimer
  have hresumed : c.resumed = true := (h.of_idle hidle).resolve_left hp
  have hover : c.disconnect.Over := ⟨rfl, rfl, htimeout, hp, hresumed⟩
  have hconnections : s.connections.modify olds.length Connection.disconnect =
      olds ++ [c.disconnect] := by
    rw [h.connections, modify_concat_length]
  have hcreate : ({ s with
      reconnectTimer := none
      reconnectAttempts := attempts } : RedisState).createConnection =
      { s with
        reconnectTimer := none
        reconnectAttempts := attempts
        connections := s.connections.modify olds.length Connection.disconnect ++ [Connection.new]
        client := some s.connections.length } :=
    RedisState.createConnection_of_some h.client
  rw [hcreate]
  refine ⟨olds ++ [c.disconnect], Connection.new, ?_, ?_, h.quitting, ?_, ?_⟩
  · show s.connections.modify _ _ ++ [Connection.new] = _
    rw [hconnections]
  · show some s.connections.length = _
    rw [h.connections, List.length_append, List.length_append]
    rfl
  · intro o ho
    rcases List.mem_append.1 ho with hold | hlast
    · exact h.olds_over o hold
    · rw [List.mem_singleton.1 hlast]
      exact hover
  · show Phase Connection.new s.status none
    exact .opening rfl rfl rfl rfl rfl (Or.inr hstatus)

/-- No call awaits a client. -/
theorem Tracked.markClosed (h : Tracked s olds c) (i : ℕ) : Tracked (s.markClosed i) olds c := by
  refine ⟨h.connections, h.client, ?_, h.olds_over, h.phase⟩
  show s.quitting.map _ = []
  rw [h.quitting, List.map_nil]

/-! ## Runs -/

/-- Every step of the recovery keeps the invariant. -/
theorem Tracked.step {a : RedisAction} (h : Tracked s olds c) (hst : recoveryStep options s a = some t) :
    ∃ olds c, Tracked t olds c := by
  cases a with
  | callConnect => cases hst
  | callDisconnect => cases hst
  | emitConnect i =>
    obtain ⟨c', hi, hst⟩ := Option.bind_eq_some_iff.1 hst
    split_ifs at hst with hguard
    obtain ⟨rfl, rfl⟩ := h.of_emits hi hguard.1
    obtain rfl := Option.some.inj hst
    exact ⟨olds, h.onConnect hguard.2⟩
  | emitError i =>
    obtain ⟨c', hi, hst⟩ := Option.bind_eq_some_iff.1 hst
    split_ifs at hst with hguard
    obtain ⟨rfl, rfl⟩ := h.of_emits hi hguard.1
    obtain rfl := Option.some.inj hst
    exact ⟨olds, h.onLoss⟩
  | emitClose i =>
    obtain ⟨c', hi, hst⟩ := Option.bind_eq_some_iff.1 hst
    split_ifs at hst with hguard
    obtain ⟨rfl, rfl⟩ := h.of_emits hi hguard.1
    obtain rfl := Option.some.inj hst
    obtain ⟨c, htracked⟩ : ∃ c, Tracked (s.onLoss options olds.length) olds c := h.onLoss
    exact ⟨olds, c, htracked.markClosed _⟩
  | connectResolves i =>
    obtain ⟨c', hi, hst⟩ := Option.bind_eq_some_iff.1 hst
    split_ifs at hst with hguard
    obtain rfl := Option.some.inj hst
    rcases h.get hi with ⟨hlt, -⟩ | ⟨rfl, rfl⟩
    -- An old connection is over, whatever becomes of its promise.
    · have hover : ∀ o : Connection, o.Over → ({ o with settling := false } : Connection).Over :=
        fun o ho => ⟨ho.emits, ho.live, ho.timeout, ho.settled, ho.resumed⟩
      exact ⟨_, _, h.change_old hlt hover⟩
    · exact ⟨olds, h.onConnectResolved hguard.2⟩
  | connectRejects i =>
    obtain ⟨c', hi, hst⟩ := Option.bind_eq_some_iff.1 hst
    split_ifs at hst with hguard
    obtain rfl := Option.some.inj hst
    rcases h.get hi with ⟨hlt, -⟩ | ⟨rfl, rfl⟩
    · have hover : ∀ o : Connection, o.Over → ({ o with
          settling := false
          timeout := false
          promise := o.promise.settle .rejected } : Connection).Over := by
        intro o ho
        refine ⟨ho.emits, ho.live, rfl, ?_, ho.resumed⟩
        show o.promise.settle .rejected ≠ .pending
        unfold PromiseState.settle
        rw [if_neg ho.settled]
        exact ho.settled
      exact ⟨_, _, h.change_old hlt hover⟩
    · exact ⟨olds, h.onConnectRejected⟩
  | timeoutFires i =>
    obtain ⟨c', hi, hst⟩ := Option.bind_eq_some_iff.1 hst
    split_ifs at hst with hguard
    obtain rfl := Option.some.inj hst
    rcases h.get hi with ⟨-, hover⟩ | ⟨rfl, rfl⟩
    · rw [hover.timeout] at hguard
      exact absurd hguard.1 (by simp)
    · exact ⟨olds, h.onTimeout hguard.1⟩
  | resume i =>
    obtain ⟨c', hi, hst⟩ := Option.bind_eq_some_iff.1 hst
    split_ifs at hst with hguard
    obtain rfl := Option.some.inj hst
    rcases h.get hi with ⟨-, hover⟩ | ⟨rfl, rfl⟩
    · unfold Connection.queued at hguard
      rw [hover.resumed] at hguard
      simp at hguard
    · exact ⟨olds, h.onResume hguard⟩
  | reconnectTimerFires =>
    unfold recoveryStep redisStep at hst
    split_ifs at hst with hguard
    obtain rfl := Option.some.inj hst
    exact h.createConnection hguard.2 hguard.1 _
  -- No call of `disconnect` is under way.
  | quitResolves k | quitRejects k =>
    obtain ⟨q, hq, -⟩ := Option.bind_eq_some_iff.1 hst
    rw [h.quitting] at hq
    cases hq

/-- The state after `connect()` on a new manager. -/
theorem tracked_connect (hurl : options.url ≠ "")
    (hs : redisStep options RedisState.init .callConnect = some s) : ∃ olds c, Tracked s olds c := by
  have hcall : RedisState.init.callConnect options = some s := hs
  unfold RedisState.callConnect at hcall
  rw [if_neg hurl] at hcall
  obtain rfl := Option.some.inj hcall
  exact ⟨[], Connection.new, rfl, rfl, rfl, fun o ho => absurd ho List.not_mem_nil,
    .opening rfl rfl rfl rfl rfl (Or.inl rfl)⟩

/-- After `connect()` with a URL, and without another call: a state that is connecting or degraded has a
reconnect timer or exactly one attempt in flight, and there is no timer beside a live client. -/
theorem never_gives_up (options : RedisManagerOptions) (hurl : options.url ≠ "") {s t : RedisState}
    (hs : redisStep options RedisState.init .callConnect = some s)
    (h : Reachable (recoveryStep options) s t) :
    (t.status = .degraded ∨ t.status = .connecting →
        t.reconnectTimer.isSome = true ∨ ∃! i, t.AttemptInFlight i) ∧
      ¬ (t.HasLiveClient ∧ t.reconnectTimer.isSome = true) := by
  obtain ⟨olds, c, htracked⟩ := h.invariant (I := fun s => ∃ olds c, Tracked s olds c)
    (fun s a t hI hst => by
      obtain ⟨olds, c, hI⟩ := hI
      exact hI.step hst) (tracked_connect hurl hs)
  have hlast : t.connections[olds.length]? = some c := by
    rw [htracked.connections]
    simp
  have hunique : c.InFlight → ∃! i, t.AttemptInFlight i := by
    intro hflight
    refine ⟨olds.length, ⟨c, hlast, hflight⟩, ?_⟩
    rintro i ⟨c', hi, hresumed, -⟩
    rcases htracked.get hi with ⟨-, hover⟩ | ⟨rfl, -⟩
    · rw [hover.resumed] at hresumed
      cases hresumed
    · rfl
  have hphase := htracked.phase
  constructor
  · intro hstatus
    generalize t.status = status, t.reconnectTimer = timer at hphase hstatus ⊢
    cases hphase with
    | opening hp hresumed hsettling => exact Or.inr (hunique ⟨hresumed, Or.inl ⟨hp, hsettling⟩⟩)
    | failed hp hresumed => exact Or.inr (hunique ⟨hresumed, Or.inr hp⟩)
    | up => simp at hstatus
    | lost => exact Or.inl rfl
  · rintro ⟨⟨c', hc', hlive⟩, htimer⟩
    rw [htracked.connections, List.mem_append, List.mem_singleton] at hc'
    rcases hc' with hold | rfl
    · rw [(htracked.olds_over c' hold).live] at hlive
      cases hlive
    · rw [(hphase.of_timer htimer).2.2.2.2] at hlive
      cases hlive

/-- A manager of a local server, whose connection closes right after `connect`: a timer is set. -/
theorem never_gives_up_local :
    let options : RedisManagerOptions := ⟨"redis://localhost:6379", false, 5000, 3, 60000⟩
    ∃ s t, redisStep options RedisState.init .callConnect = some s ∧
      Reachable (recoveryStep options) s t ∧ t.status = .degraded ∧ t.reconnectTimer = some 5000 ∧
        (t.reconnectTimer.isSome = true ∨ ∃! i, t.AttemptInFlight i) ∧
          ¬ (t.HasLiveClient ∧ t.reconnectTimer.isSome = true) := by
  intro options
  have hreach : Reachable (recoveryStep options)
      ⟨.connecting, some 0, 0, none, [Connection.new], [], false⟩
      ⟨.degraded, some 0, 0, some 5000, [⟨true, false, true, true, false, .resolved, true⟩], [], false⟩ :=
    ⟨[.emitConnect 0, .resume 0, .emitClose 0], by decide +kernel⟩
  have hrecovers := never_gives_up options (by decide) rfl hreach
  exact ⟨_, _, rfl, hreach, rfl, rfl, hrecovers.1 (Or.inl rfl), hrecovers.2⟩

end AlsaqiBackend.Redis
