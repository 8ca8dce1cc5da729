import AlsaqiBackend.Redis.Manager

/-!
# After a disconnect

`disconnect()` clears the reconnect timer, awaits `quit()` and then sets the status. The handlers of the
client and the failure of an attempt still run during the await and after it, with no regard to the call.
`disconnect_final` says which of them must stay away for the disconnect to be final, and
`not_final_of_unsafe` that each of them spoils it, at the latest when the next `quit()` resolves.
-/

namespace AlsaqiBackend.Redis

open Lib

variable (options : RedisManagerOptions)

/-- After a `disconnect()`: no timer, the status, and no client that is open. -/
def RedisState.Final (s : RedisState) : Prop :=
  s.down = true →
    s.reconnectTimer = none ∧ s.status = .disconnected ∧ ∀ c ∈ s.connections, c.emits = false

/-- The steps that leave a disconnect alone. -/
def SafeStep (s : RedisState) : RedisAction → Prop
  | .callConnect => s.quitting = []
  | .emitError _ => s.status = .connected → s.quitting = []
  | .emitClose _ => s.status = .connected → s.quitting = []
  | .resume i =>
    (s.connections[i]?).map Connection.promise = some .rejected → s.quitting = [] ∧ s.down = false
  | _ => True

instance (s : RedisState) (a : RedisAction) : Decidable (SafeStep s a) := by
  unfold SafeStep
  cases a <;> infer_instance

/-- The client of the manager alone is open, and the calls that await `quit()` await that of the client. -/
structure DisconnectInv (s : RedisState) : Prop where
  emits : ∀ {i c}, s.connections[i]? = some c → c.emits = true → s.client = some i
  timer : s.quitting ≠ [] → s.reconnectTimer = none
  quits : ∀ q ∈ s.quitting, s.client = some q.client ∨ s.client = none
  down : s.down = true → s.reconnectTimer = none ∧ s.status = .disconnected ∧ s.client = none
  client_lt : ∀ {i}, s.client = some i → i < s.connections.length
  quits_lt : ∀ q ∈ s.quitting, q.client < s.connections.length

variable {options} {s t : RedisState} {i : ℕ}

/-- Without a client of the manager nothing is open. -/
theorem DisconnectInv.emits_eq_false (h : DisconnectInv s) (hclient : s.client = none) :
    ∀ c ∈ s.connections, c.emits = false := by
  intro c hc
  obtain ⟨i, hi⟩ := List.mem_iff_getElem?.1 hc
  cases hemits : c.emits with
  | false => rfl
  | true =>
    have hsome := h.emits hi hemits
    rw [hclient] at hsome
    cases hsome

/-- The invariant is more than the property. -/
theorem DisconnectInv.final (h : DisconnectInv s) : s.Final := by
  intro hdown
  obtain ⟨htimer, hstatus, hclient⟩ := h.down hdown
  exact ⟨htimer, hstatus, h.emits_eq_false hclient⟩

/-- A new manager. -/
theorem DisconnectInv.init : DisconnectInv RedisState.init where
  emits h := by cases h
  timer h := absurd rfl h
  quits q h := absurd h List.not_mem_nil
  down h := by cases h
  client_lt h := by cases h
  quits_lt q h := absurd h List.not_mem_nil

/-! ## Changes of the state -/

/-- A connection is changed, and opened by no change. -/
theorem DisconnectInv.change (h : DisconnectInv s) {f : Connection → Connection}
    (hf : ∀ c, (f c).emits = true → c.emits = true) (i : ℕ) : DisconnectInv (s.change i f) where
  emits := by
    intro j c hj hemits
    rcases getElem?_modify_cases hj with ⟨rfl, c', hc', rfl⟩ | ⟨-, hold⟩
    · exact h.emits hc' (hf c' hemits)
    · exact h.emits hold hemits
  timer := h.timer
  quits := h.quits
  down := h.down
  client_lt := by
    intro j hj
    show j < (s.connections.modify i f).length
    rw [List.length_modify]
    exact h.client_lt hj
  quits_lt := by
    intro q hq
    show q.client < (s.connections.modify i f).length
    rw [List.length_modify]
    exact h.quits_lt q hq

/-- Where one client at most is open, nothing is after its `disconnect()`. -/
theorem emits_eq_false_of_modify (hopen : ∀ j c, s.connections[j]? = some c → c.emits = true → j = i) :
    ∀ c ∈ s.connections.modify i Connection.disconnect, c.emits = false := by
  intro c hc
  obtain ⟨j, hj⟩ := List.mem_iff_getElem?.1 hc
  rcases getElem?_modify_cases hj with ⟨-, c', -, rfl⟩ | ⟨hne, hold⟩
  · rfl
  · rw [Bool.eq_false_iff]
    exact fun hemits => hne (hopen j c hold hemits)

/-- After `disconnectClient` nothing is open. -/
theorem DisconnectInv.disconnectClient_closed (h : DisconnectInv s) :
    ∀ c ∈ s.disconnectClient.connections, c.emits = false := by
  cases hclient : s.client with
  | none =>
    have hsame : s.disconnectClient = s := by
      unfold RedisState.disconnectClient
      rw [hclient]
    rw [hsame]
    exact h.emits_eq_false hclient
  | some i =>
    rw [RedisState.disconnectClient_of_some hclient]
    apply emits_eq_false_of_modify
    intro j c hj hemits
    exact Option.some.inj ((h.emits hj hemits).symm.trans hclient)

/-- The number of the connections is that before. -/
theorem length_disconnectClient (s : RedisState) :
    s.disconnectClient.connections.length = s.connections.length := by
  unfold RedisState.disconnectClient
  split
  · exact List.length_modify ..
  · rfl

/-- The client is disconnected, and the manager keeps it. -/
theorem DisconnectInv.disconnectClient (h : DisconnectInv s) : DisconnectInv s.disconnectClient := by
  unfold RedisState.disconnectClient
  split
  · exact h.change (fun c hemits => by cases hemits) _
  · exact h

/-- A new connection is made where no call awaits `quit()`. -/
theorem DisconnectInv.createConnection (h : DisconnectInv s) (hquitting : s.quitting = [])
    (hdown : s.down = false) : DisconnectInv s.createConnection := by
  have hrest : s.disconnectClient.quitting = s.quitting ∧ s.disconnectClient.down = s.down := by
    unfold RedisState.disconnectClient
    split <;> exact ⟨rfl, rfl⟩
  have hnoquit : s.createConnection.quitting = [] := hrest.1.trans hquitting
  have hup : s.createConnection.down = false := hrest.2.trans hdown
  refine ⟨?_, ?_, ?_, ?_, ?_, ?_⟩
  · intro i c hi hemits
    rcases getElem?_concat_cases hi with hold | ⟨hlast, -⟩
    · -- What was open has been disconnected.
      rw [h.disconnectClient_closed c (List.mem_of_getElem? hold)] at hemits
      cases hemits
    · show some s.connections.length = some i
      rw [hlast, length_disconnectClient]
  · intro hne
    exact absurd hnoquit hne
  · intro q hq
    rw [hnoquit] at hq
    cases hq
  · intro hd
    rw [hup] at hd
    cases hd
  · intro i hi
    obtain rfl := Option.some.inj hi
    show _ < (s.disconnectClient.connections ++ [Connection.new]).length
    rw [List.length_append, length_disconnectClient]
    exact Nat.lt_succ_self _
  · intro q hq
    rw [hnoquit] at hq
    cases hq

/-- A manager is degraded, and a timer set, where no `disconnect()` has begun. -/
theorem DisconnectInv.degrade (h : DisconnectInv s) (hquitting : s.quitting = [])
    (hdown : s.down = false) :
    DisconnectInv ({ s with status := .degraded }.scheduleReconnect options) := by
  obtain ⟨delay, hdelay⟩ := RedisState.scheduleReconnect_eq options
    { s with status := .degraded }
  rw [hdelay]
  refine ⟨h.emits, ?_, h.quits, ?_, h.client_lt, h.quits_lt⟩
  · intro hne
    exact absurd hquitting hne
  · intro hd
    rw [show s.down = true from hd] at hdown
    cases hdown

/-! ## Steps -/

/-- A handler that sees a loss, where no call awaits the `quit()` of a connected client. -/
theorem DisconnectInv.onLoss (h : DisconnectInv s) (hsafe : s.status = .connected → s.quitting = [])
    (i : ℕ) : DisconnectInv (s.onLoss options i) := by
  have hchanged : DisconnectInv (s.change i fun c => { c with live := false }) := by
    refine h.change ?_ i
    intro c hemits
    exact hemits
  unfold RedisState.onLoss
  simp only
  split_ifs with hstatus
  · have hquitting : s.quitting = [] := hsafe hstatus
    have hdown : s.down = false := by
      cases hd : s.down with
      | false => rfl
      | true =>
        rw [(h.down hd).2.1] at hstatus
        cases hstatus
    exact hchanged.degrade hquitting hdown
  · exact hchanged

/-- The calls that await a client are marked. -/
theorem DisconnectInv.markClosed (h : DisconnectInv s) (i : ℕ) : DisconnectInv (s.markClosed i) := by
  have hmark : ∀ q ∈ (s.markClosed i).quitting, ∃ q' ∈ s.quitting, q.client = q'.client := by
    intro q hq
    obtain ⟨q', hq', rfl⟩ := List.mem_map.1 hq
    refine ⟨q', hq', ?_⟩
    split_ifs <;> rfl
  refine ⟨h.emits, ?_, ?_, h.down, h.client_lt, ?_⟩
  · intro hne
    exact h.timer fun hnil => hne (List.map_eq_nil_iff.2 hnil)
  · intro q hq
    obtain ⟨q', hq', heq⟩ := hmark q hq
    rw [heq]
    exact h.quits q' hq'
  · intro q hq
    obtain ⟨q', hq', heq⟩ := hmark q hq
    rw [heq]
    exact h.quits_lt q' hq'

/-- `disconnect()` ends, with nothing open and no timer. -/
theorem DisconnectInv.finishDisconnect (hclosed : ∀ c ∈ s.connections, c.emits = false)
    (htimer : s.reconnectTimer = none) (hquits : ∀ q ∈ s.quitting, q.client < s.connections.length) :
    DisconnectInv s.finishDisconnect where
  emits := by
    intro i c hi hemits
    rw [hclosed c (List.mem_of_getElem? hi)] at hemits
    cases hemits
  timer _ := htimer
  quits _ _ := Or.inr rfl
  down _ := ⟨htimer, rfl, rfl⟩
  client_lt h := by cases h
  quits_lt := hquits

/-- One of the calls that await `quit()` goes. -/
theorem DisconnectInv.eraseQuit (h : DisconnectInv s) (k : ℕ) :
    DisconnectInv { s with quitting := s.quitting.eraseIdx k } where
  emits := h.emits
  timer hne := h.timer fun hnil => hne (by rw [hnil]; rfl)
  quits q hq := h.quits q (List.mem_of_mem_eraseIdx hq)
  down := h.down
  client_lt := h.client_lt
  quits_lt q hq := h.quits_lt q (List.mem_of_mem_eraseIdx hq)

/-- `disconnect()` begins. -/
theorem DisconnectInv.callDisconnect (h : DisconnectInv s) : DisconnectInv s.callDisconnect := by
  unfold RedisState.callDisconnect
  simp only
  split
  · rename_i i hclient
    refine ⟨h.emits, fun _ => rfl, ?_, ?_, h.client_lt, ?_⟩
    · intro q hq
      rcases List.mem_append.1 hq with hold | hnew
      · exact h.quits q hold
      · rw [List.mem_singleton.1 hnew]
        exact Or.inl hclient
    · intro hd
      exact ⟨rfl, (h.down hd).2⟩
    · intro q hq
      rcases List.mem_append.1 hq with hold | hnew
      · exact h.quits_lt q hold
      · rw [List.mem_singleton.1 hnew]
        exact h.client_lt hclient
  · rename_i hclient
    exact DisconnectInv.finishDisconnect (h.emits_eq_false hclient) rfl h.quits_lt

/-- `quit()` resolves, after the `close` of its client. -/
theorem DisconnectInv.quitResolves (h : DisconnectInv s) {k : ℕ} {q : PendingQuit}
    (hk : s.quitting[k]? = some q) :
    DisconnectInv { s.change q.client Connection.disconnect with
      quitting := s.quitting.eraseIdx k }.finishDisconnect := by
  have hq : q ∈ s.quitting := List.mem_of_getElem? hk
  have hgone := (h.change (f := Connection.disconnect) (fun c hemits => by cases hemits)
    q.client).eraseQuit k
  refine DisconnectInv.finishDisconnect ?_ (h.timer (List.ne_nil_of_mem hq)) hgone.quits_lt
  show ∀ c ∈ s.connections.modify q.client Connection.disconnect, c.emits = false
  apply emits_eq_false_of_modify
  intro j c hj hemits
  -- Only the client of the manager is open, and that is the one of the call.
  have hsome := h.emits hj hemits
  rcases h.quits q hq with hclient | hclient
  · exact Option.some.inj (hsome.symm.trans hclient)
  · rw [hclient] at hsome
    cases hsome

/-- `quit()` rejects. -/
theorem DisconnectInv.quitRejects (h : DisconnectInv s) {k : ℕ} {q : PendingQuit}
    (hk : s.quitting[k]? = some q) :
    DisconnectInv { s with quitting := s.quitting.eraseIdx k }.onQuitRejected := by
  have hq : q ∈ s.quitting := List.mem_of_getElem? hk
  have hgone := h.eraseQuit k
  have htimer : s.reconnectTimer = none := h.timer (List.ne_nil_of_mem hq)
  unfold RedisState.onQuitRejected
  split
  · rename_i i hclient
    have hrest := RedisState.disconnectClient_of_some hclient
    have hdisconnected := hgone.disconnectClient
    refine DisconnectInv.finishDisconnect hgone.disconnectClient_closed ?_ hdisconnected.quits_lt
    rw [hrest]
    exact htimer
  · exact hgone

/-- The handler of `connect`, of a client that is open. -/
theorem DisconnectInv.onConnect (h : DisconnectInv s) {c : Connection}
    (hi : s.connections[i]? = some c) (hemits : c.emits = true) : DisconnectInv (s.onConnect i) := by
  have hclient := h.emits hi hemits
  have hchanged := h.change (f := fun c => { c with
      live := true
      greeted := true
      timeout := false
      promise := c.promise.settle .resolved }) (fun c hemits => hemits) i
  refine ⟨hchanged.emits, fun _ => rfl, h.quits, ?_, hchanged.client_lt, hchanged.quits_lt⟩
  intro hd
  rw [(h.down hd).2.2] at hclient
  cases hclient

/-- The timeout of a connection fires. -/
theorem DisconnectInv.onTimeout (h : DisconnectInv s) (i : ℕ) : DisconnectInv (s.onTimeout i) := by
  unfold RedisState.onTimeout
  split_ifs
  · refine h.disconnectClient.change ?_ i
    intro c hemits
    exact hemits
  · refine h.change ?_ i
    intro c hemits
    exact hemits

/-- What awaits the promise of a connection runs, and sees a failure only where no `disconnect()` has
begun. -/
theorem DisconnectInv.onResume (h : DisconnectInv s) (i : ℕ) {promise : PromiseState}
    (hsafe : promise = .rejected → s.quitting = [] ∧ s.down = false) :
    DisconnectInv (s.onResume options i promise) := by
  have hchanged : DisconnectInv (s.change i fun c => { c with resumed := true }) := by
    refine h.change ?_ i
    intro c hemits
    exact hemits
  unfold RedisState.onResume
  simp only
  split_ifs with hrejected
  · obtain ⟨hquitting, hdown⟩ := hsafe hrejected
    exact hchanged.degrade hquitting hdown
  · exact hchanged

/-- `connect()` is called where no call awaits `quit()`. -/
theorem DisconnectInv.callConnect (h : DisconnectInv s) (hquitting : s.quitting = [])
    (hst : s.callConnect options = some t) : DisconnectInv t := by
  have hcalled : ∀ status, DisconnectInv { s with status := status, down := false } := by
    intro status
    exact ⟨h.emits, h.timer, h.quits, fun hd => absurd hd (by simp), h.client_lt, h.quits_lt⟩
  unfold RedisState.callConnect at hst
  split_ifs at hst
  · obtain rfl := Option.some.inj hst
    exact hcalled _
  · obtain rfl := Option.some.inj hst
    exact (hcalled _).createConnection hquitting rfl

/-- A safe step keeps the invariant. -/
theorem DisconnectInv.step (h : DisconnectInv s) (a : RedisAction) (hsafe : SafeStep s a)
    (hst : redisStep options s a = some t) : DisconnectInv t := by
  cases a with
  | callConnect => exact h.callConnect hsafe hst
  | callDisconnect =>
    obtain rfl := Option.some.inj hst
    exact h.callDisconnect
  | emitConnect i =>
    obtain ⟨c, hi, hst⟩ := Option.bind_eq_some_iff.1 hst
    split_ifs at hst with hguard
    obtain rfl := Option.some.inj hst
    exact h.onConnect hi hguard.1
  | emitError i =>
    obtain ⟨c, hi, hst⟩ := Option.bind_eq_some_iff.1 hst
    split_ifs at hst
    obtain rfl := Option.some.inj hst
    exact h.onLoss hsafe i
  | emitClose i =>
    obtain ⟨c, hi, hst⟩ := Option.bind_eq_some_iff.1 hst
    split_ifs at hst
    obtain rfl := Option.some.inj hst
    exact (h.onLoss hsafe i).markClosed i
  | connectResolves i | connectRejects i =>
    obtain ⟨c, hi, hst⟩ := Option.bind_eq_some_iff.1 hst
    split_ifs at hst
    obtain rfl := Option.some.inj hst
    refine h.change ?_ i
    intro c hemits
    exact hemits
  | timeoutFires i =>
    obtain ⟨c, hi, hst⟩ := Option.bind_eq_some_iff.1 hst
    split_ifs at hst
    obtain rfl := Option.some.inj hst
    exact h.onTimeout i
  | resume i =>
    obtain ⟨c, hi, hst⟩ := Option.bind_eq_some_iff.1 hst
    split_ifs at hst
    obtain rfl := Option.some.inj hst
    refine h.onResume i fun hrejected => hsafe ?_
    rw [hi, Option.map_some, hrejected]
  | reconnectTimerFires =>
    unfold redisStep at hst
    split_ifs at hst with hguard
    obtain rfl := Option.some.inj hst
    -- A timer is set, so that no `disconnect()` has begun.
    have htimer : s.reconnectTimer ≠ none := Option.isSome_iff_ne_none.1 hguard.1
    have hquitting : s.quitting = [] := by
      by_contra hne
      exact htimer (h.timer hne)
    have hdown : s.down = false := by
      cases hd : s.down with
      | false => rfl
      | true => exact absurd (h.down hd).1 htimer
    have hfired : DisconnectInv { s with
        reconnectTimer := none
        reconnectAttempts := s.reconnectAttempts + 1 } :=
      ⟨h.emits, fun _ => rfl, h.quits, fun hd => ⟨rfl, (h.down hd).2⟩, h.client_lt, h.quits_lt⟩
    exact hfired.createConnection hquitting hdown
  | quitResolves k =>
    obtain ⟨q, hq, hst⟩ := Option.bind_eq_some_iff.1 hst
    split_ifs at hst
    obtain rfl := Option.some.inj hst
    exact h.quitResolves hq
  | quitRejects k =>
    obtain ⟨q, hq, hst⟩ := Option.bind_eq_some_iff.1 hst
    obtain rfl := Option.some.inj hst
    exact h.quitRejects hq

/-- In a run of safe steps of a new manager every disconnect is final. -/
theorem disconnect_final (options : RedisManagerOptions) (actions : List RedisAction)
    (h : Guarded (redisStep options) SafeStep RedisState.init actions) :
    Along (redisStep options) RedisState.Final RedisState.init actions :=
  along_of_guarded (fun _ hinv => hinv.final) (fun _ a _ hinv hsafe hst => hinv.step a hsafe hst)
    DisconnectInv.init h

/-- A `disconnect()` of a degraded manager, whose `quit()` rejects: the timer is cleared for good. -/
theorem disconnect_final_degraded :
    let options : RedisManagerOptions := ⟨"redis://localhost:6379", false, 5000, 3, 60000⟩
    Along (redisStep options) RedisState.Final RedisState.init
      [.callConnect, .emitConnect 0, .resume 0, .emitClose 0, .callDisconnect, .quitRejects 0] := by
  intro options
  exact disconnect_final options _ (by decide +kernel)

/-- A `disconnect()` of a connected manager: its client emits `close`, which sets a timer. -/
theorem disconnect_leaves_timer :
    let options : RedisManagerOptions := ⟨"redis://localhost:6379", false, 5000, 3, 60000⟩
    ¬ Along (redisStep options) RedisState.Final RedisState.init
      [.callConnect, .emitConnect 0, .resume 0, .callDisconnect, .emitClose 0, .quitResolves 0] := by
  intro options h
  have hrun : run (redisStep options) RedisState.init
      [.callConnect, .emitConnect 0, .resume 0, .callDisconnect, .emitClose 0, .quitResolves 0] =
      some ⟨.disconnected, none, 0, some 5000, [⟨false, false, true, true, false, .resolved, true⟩], [],
        true⟩ := by decide +kernel
  have hfinal := (h.last hrun) rfl
  exact absurd hfinal.1 (by simp)

/-! ## Steps that spoil a disconnect -/

/-- A timer that is set while a call awaits `quit()` outlasts it. -/
theorem not_final_of_timer (htimer : s.reconnectTimer ≠ none) {k : ℕ}
    (hst : redisStep options s (.quitResolves k) = some t) : ¬ t.Final := by
  obtain ⟨q, hq, hst⟩ := Option.bind_eq_some_iff.1 hst
  split_ifs at hst
  obtain rfl := Option.some.inj hst
  intro hfinal
  exact htimer (hfinal rfl).1

/-- So does a client that is open, and is not the one of the call. -/
theorem not_final_of_open {c : Connection} (hi : s.connections[i]? = some c) (hemits : c.emits = true)
    (hquits : ∀ q ∈ s.quitting, q.client ≠ i) {k : ℕ}
    (hst : redisStep options s (.quitResolves k) = some t) : ¬ t.Final := by
  obtain ⟨q, hq, hst⟩ := Option.bind_eq_some_iff.1 hst
  split_ifs at hst
  obtain rfl := Option.some.inj hst
  intro hfinal
  have hkept : (s.connections.modify q.client Connection.disconnect)[i]? = some c := by
    rw [List.getElem?_modify, hi]
    simp [hquits q (List.mem_of_getElem? hq)]
  have hclosed := (hfinal rfl).2.2 c (List.mem_of_getElem? hkept)
  rw [hemits] at hclosed
  cases hclosed

/-- A connected manager is left with a timer. -/
theorem onLoss_timer (hstatus : s.status = .connected) (i : ℕ) :
    (s.onLoss options i).reconnectTimer ≠ none := by
  obtain ⟨delay, hdelay⟩ := RedisState.scheduleReconnect_eq options
    { s.change i fun c => { c with live := false } with status := .degraded }
  unfold RedisState.onLoss
  simp only
  rw [if_pos hstatus, hdelay]
  simp

/-- A step that is not safe spoils the disconnect: at once, or when a `quit()` that is awaited resolves
next. -/
theorem not_final_of_unsafe (hurl : options.url ≠ "") (h : DisconnectInv s) (a : RedisAction)
    (hbroken : ¬ SafeStep s a) (hst : redisStep options s a = some t) :
    ¬ t.Final ∨ ∀ k u, redisStep options t (.quitResolves k) = some u → ¬ u.Final := by
  cases a with
  | callConnect =>
    have hcall : s.callConnect options = some t := hst
    unfold RedisState.callConnect at hcall
    rw [if_neg hurl] at hcall
    obtain rfl := Option.some.inj hcall
    -- The new client is open, and no call awaits it.
    set called : RedisState := { s with status := .connecting, down := false } with hcalled
    have hnew : called.createConnection.connections[s.connections.length]? = some Connection.new := by
      show (called.disconnectClient.connections ++ [Connection.new])[s.connections.length]? = _
      rw [show s.connections.length = called.disconnectClient.connections.length from
        (length_disconnectClient called).symm, List.getElem?_concat_length]
    have hquitting : called.createConnection.quitting = s.quitting := by
      show called.disconnectClient.quitting = s.quitting
      unfold RedisState.disconnectClient
      split <;> rfl
    refine Or.inr fun k u hu => not_final_of_open hnew rfl ?_ hu
    intro q hq
    rw [hquitting] at hq
    exact Nat.ne_of_lt (h.quits_lt q hq)
  | emitError i =>
    obtain ⟨c, hi, hst⟩ := Option.bind_eq_some_iff.1 hst
    split_ifs at hst
    obtain rfl := Option.some.inj hst
    have hstatus : s.status = .connected := (Classical.not_imp.1 hbroken).1
    exact Or.inr fun k u hu => not_final_of_timer (onLoss_timer hstatus i) hu
  | emitClose i =>
    obtain ⟨c, hi, hst⟩ := Option.bind_eq_some_iff.1 hst
    split_ifs at hst
    obtain rfl := Option.some.inj hst
    have hstatus : s.status = .connected := (Classical.not_imp.1 hbroken).1
    refine Or.inr fun k u hu => not_final_of_timer ?_ hu
    exact onLoss_timer hstatus i
  | resume i =>
    obtain ⟨c, hi, hst⟩ := Option.bind_eq_some_iff.1 hst
    split_ifs at hst
    obtain rfl := Option.some.inj hst
    obtain ⟨hrejected, -⟩ := Classical.not_imp.1 hbroken
    rw [hi, Option.map_some, Option.some.injEq] at hrejected
    have htimer : (s.onResume options i c.promise).reconnectTimer ≠ none ∧
        (s.onResume options i c.promise).down = s.down := by
      obtain ⟨delay, hdelay⟩ := RedisState.scheduleReconnect_eq options
        { s.change i fun c => { c with resumed := true } with status := .degraded }
      unfold RedisState.onResume
      simp only
      rw [if_pos hrejected, hdelay]
      exact ⟨by simp, rfl⟩
    cases hdown : s.down with
    | true => exact Or.inl fun hfinal => htimer.1 (hfinal (htimer.2.trans hdown)).1
    | false => exact Or.inr fun k u hu => not_final_of_timer htimer.1 hu
  | _ => exact absurd trivial hbroken

end AlsaqiBackend.Redis
