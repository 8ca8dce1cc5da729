import AlsaqiBackend.Events.Operations

/-!
# When a delivered event describes a committed change

`CommittedFirst` says of a session that each event was delivered with its change committed. Of the three
ways to send, two deliver behind the `COMMIT`, and are right as soon as the body makes the change; to send
inside of the transaction is right only when something else has committed it before.
-/

namespace AlsaqiBackend.Events

open AlsaqiBackend.Lib TxM

/-- At every delivery, the change that the event describes was committed. -/
def CommittedFirst (s : Session String) : Prop := ∀ d ∈ s.delivered, d.event ∈ d.committed

instance (s : Session String) : Decidable (CommittedFirst s) :=
  inferInstanceAs (Decidable (∀ d ∈ s.delivered, d.event ∈ d.committed))

/-- The call of `transaction` reaches its body. -/
structure Opens (world : World) (caller : Caller) : Prop where
  connect : world.command .outer .connect = none
  begins : world.command .outer .begin = none
  /-- On the embedded database, the enclosing transaction is not aborted. -/
  alive : world.isExternal = true ∨ caller ≠ .open true

/-- A body that returns is followed by a delivery. -/
structure Dispatches (world : World) (caller : Caller) : Prop extends Opens world caller where
  commits : world.command .outer .commit = none
  delivers : world.delivers = true

/-- The session in which the body begins. -/
def inside : Session String := ⟨[], some ⟨[], false⟩, some [], []⟩

/-! ## What the steps deliver -/

section

variable {σ : Type} {env : Environment σ} {event : String} {s : Session String} {isExternal : Bool}
  {caller : Session String}

theorem CommittedFirst.of_delivered (h : s.delivered = []) : CommittedFirst s := by
  intro d hd
  rw [h] at hd
  cases hd

@[simp]
theorem abort_delivered : s.abort.delivered = s.delivered := rfl

@[simp]
theorem commit_delivered : s.commit.delivered = s.delivered := by
  unfold Session.commit
  cases s.tx <;> rfl

@[simp]
theorem rollback_delivered : s.rollback.delivered = s.delivered := rfl

@[simp]
theorem leave_delivered : (s.leave isExternal caller).delivered = s.delivered := rfl

@[simp]
theorem leave_committed : (s.leave isExternal caller).committed = s.committed := rfl

@[simp]
theorem storeInDeadLetterQueue_delivered : (storeInDeadLetterQueue env s).delivered = s.delivered := by
  unfold storeInDeadLetterQueue
  split_ifs
  · rfl
  · cases env.deadLetter <;> rfl

@[simp]
theorem commit_buffer : s.commit.buffer = s.buffer := by
  unfold Session.commit
  cases s.tx <;> rfl

@[simp]
theorem storeInDeadLetterQueue_buffer : (storeInDeadLetterQueue env s).buffer = s.buffer := by
  unfold storeInDeadLetterQueue
  split_ifs
  · rfl
  · cases env.deadLetter <;> rfl

@[simp]
theorem sendEvent_buffer : (sendEvent env event s).buffer = s.buffer := by
  unfold sendEvent
  split_ifs <;> simp

theorem sendEvent_delivered : (sendEvent env event s).delivered =
    if env.delivers then s.delivered ++ [⟨event, s.committed⟩] else s.delivered := by
  unfold sendEvent
  split_ifs <;> simp

/-- The flush of an empty buffer. -/
theorem flushOnCommit_nil (h : s.buffer = some []) : flushOnCommit env s = s := by
  obtain ⟨committed, tx, buffer, delivered⟩ := s
  obtain rfl : buffer = some [] := h
  rfl

/-- The flush of one event, however long it takes. -/
theorem flushOnCommit_singleton (h : s.buffer = some [event]) :
    flushOnCommit env s = sendEvent env event { s with buffer := some [] } := by
  unfold flushOnCommit
  rw [h]
  rfl

end

/-! ## The call -/

section

variable {world : World} {caller : Caller} {event : String} {fn : SessionM String Unit}
  {body : TxM (List String) Unit}

theorem beginTx_enter (h : Opens world caller) :
    beginTx world.toEnvironment .outer ((start caller).enter world.isExternal) = .ok () inside := by
  unfold beginTx
  rw [h.begins]
  cases hexternal : world.isExternal with
  | true => cases caller <;> rfl
  | false =>
    cases caller with
    | none => rfl
    | ended => rfl
    | «open» aborted =>
      cases aborted with
      | false => rfl
      | true => exact absurd rfl (h.alive.resolve_left (by rw [hexternal]; exact Bool.false_ne_true))

/-- Without its body, the call delivers nothing. -/
theorem transaction_of_not_opens (fn : SessionM String Unit) (h : ¬ Opens world caller) :
    ∃ e t, transaction world.toEnvironment world.isExternal .outer fn (start caller) = .error e t ∧
      t.delivered = [] := by
  have hstart : (start caller).delivered = [] := by cases caller <;> rfl
  unfold transaction
  cases hconnect : world.command .outer .connect with
  | some e => exact ⟨e, _, rfl, hstart⟩
  | none =>
    dsimp only [bind, EStateM.bind, pure, EStateM.pure, beginTx]
    cases hbegin : world.command .outer .begin with
    | some e => exact ⟨e, _, rfl, hstart⟩
    | none =>
      have hdead : ((start caller).enter world.isExternal).isAborted = true := by
        rw [← Bool.not_eq_false]
        intro halive
        refine h ⟨hconnect, hbegin, ?_⟩
        cases hexternal : world.isExternal with
        | true => exact .inl rfl
        | false =>
          refine .inr fun heq => ?_
          rw [heq, hexternal] at halive
          cases halive
      rw [if_pos hdead]
      exact ⟨_, _, rfl, hstart⟩

/-- A body that returns leaves its transaction to the `COMMIT`. -/
theorem commit_inside {tx : Tx (List String)} (hwell : tx.aborted = false) :
    Session.commit { inside with tx := some tx } = ⟨tx.db, none, some [], []⟩ := by
  unfold Session.commit inside
  dsimp only
  rw [hwell]
  rfl

/-- The delivery of one event, to a service that has received none. -/
theorem committedFirst_of_sent {t u : Session String} (ht : t.delivered = [])
    (hu : u.delivered = (sendEvent world.toEnvironment event t).delivered) :
    CommittedFirst u ↔ (world.delivers = true → event ∈ t.committed) := by
  unfold CommittedFirst
  rw [hu, sendEvent_delivered, ht]
  cases world.delivers with
  | true => simp
  | false => simp

/-- Behind the `COMMIT`, the event is right when the body makes the change. -/
theorem committedFirst_sendAfterCommit (hbody : Ensures body fun tx => tx.aborted = false) :
    CommittedFirst (after (sendAfterCommit world event body) (start caller)) ↔
      (Dispatches world caller → ∀ tx, body ⟨[], false⟩ = (.ok (), tx) → event ∈ tx.db) := by
  unfold sendAfterCommit after
  dsimp only [bind, EStateM.bind]
  by_cases hopens : Opens world caller
  · rw [transaction_of_begins hopens.connect (beginTx_enter hopens), onConnection_of_tx rfl]
    match hresult : body ⟨[], false⟩ with
    | (.error e, tx) => exact iff_of_true (.of_delivered rfl) fun _ _ h => nomatch congrArg Prod.fst h
    | (.ok (), tx) =>
      dsimp only
      cases hcommit : world.command .outer .commit with
      | some e =>
        refine iff_of_true (.of_delivered rfl) fun hdispatches => ?_
        rw [hdispatches.commits] at hcommit
        cases hcommit
      | none =>
        dsimp only
        rw [commit_inside (hbody _ _ _ hresult), flushOnCommit_nil rfl]
        dsimp only [modify, modifyGet, MonadStateOf.modifyGet, EStateM.modifyGet]
        rw [committedFirst_of_sent leave_delivered rfl]
        constructor
        · intro h hdispatches tx' heq
          rw [← (Prod.mk.inj heq).2]
          exact h hdispatches.delivers
        · exact fun h hdelivers => h ⟨hopens, hcommit, hdelivers⟩ tx rfl
  · obtain ⟨e, t, herror, hdelivered⟩ := transaction_of_not_opens (onConnection body) hopens
    rw [herror]
    exact iff_of_true (.of_delivered hdelivered) fun hdispatches => absurd hdispatches.toOpens hopens

/-- With the buffer flushed behind the `COMMIT`, the same. -/
theorem committedFirst_enqueueInside (hbody : Ensures body fun tx => tx.aborted = false) :
    CommittedFirst (after (enqueueInside world event body) (start caller)) ↔
      (Dispatches world caller → ∀ tx, body ⟨[], false⟩ = (.ok (), tx) → event ∈ tx.db) := by
  unfold enqueueInside after
  by_cases hopens : Opens world caller
  · rw [transaction_of_begins hopens.connect (beginTx_enter hopens)]
    dsimp only [bind, EStateM.bind]
    rw [onConnection_of_tx rfl]
    match hresult : body ⟨[], false⟩ with
    | (.error e, tx) => exact iff_of_true (.of_delivered rfl) fun _ _ h => nomatch congrArg Prod.fst h
    | (.ok (), tx) =>
      dsimp only [modify, modifyGet, MonadStateOf.modifyGet, EStateM.modifyGet]
      cases hcommit : world.command .outer .commit with
      | some e =>
        refine iff_of_true (.of_delivered rfl) fun hdispatches => ?_
        rw [hdispatches.commits] at hcommit
        cases hcommit
      | none =>
        dsimp only
        have hwell : tx.aborted = false := hbody _ _ _ hresult
        have hcommitted : (enqueueEvent world.toEnvironment event { inside with tx := some tx }).commit =
            ⟨tx.db, none, some [event], []⟩ := by
          unfold enqueueEvent Session.commit inside
          dsimp only
          rw [hwell]
          rfl
        rw [hcommitted, flushOnCommit_singleton rfl]
        rw [committedFirst_of_sent rfl (leave_delivered)]
        constructor
        · intro h hdispatches tx' heq
          rw [← (Prod.mk.inj heq).2]
          exact h hdispatches.delivers
        · exact fun h hdelivers => h ⟨hopens, hcommit, hdelivers⟩ tx rfl
  · obtain ⟨e, t, herror, hdelivered⟩ := transaction_of_not_opens _ hopens
    rw [herror]
    exact iff_of_true (.of_delivered hdelivered) fun hdispatches => absurd hdispatches.toOpens hopens

/-- Inside of the transaction, it is right when the change is committed already. -/
theorem committedFirst_sendInside (hdelivered : (after fn inside).delivered = [])
    (hbuffer : (after fn inside).buffer = some []) :
    CommittedFirst (after (sendInside world event fn) (start caller)) ↔
      (Opens world caller → world.delivers = true → ∀ t, fn inside = .ok () t → event ∈ t.committed) := by
  unfold sendInside
  unfold after at hdelivered hbuffer ⊢
  by_cases hopens : Opens world caller
  · rw [transaction_of_begins hopens.connect (beginTx_enter hopens)]
    dsimp only [bind, EStateM.bind]
    match hresult : fn inside with
    | .error e t =>
      rw [hresult] at hdelivered
      exact iff_of_true (.of_delivered hdelivered) fun _ _ _ h => nomatch h
    | .ok () t =>
      rw [hresult] at hdelivered hbuffer
      dsimp only [modify, modifyGet, MonadStateOf.modifyGet, EStateM.modifyGet] at hdelivered hbuffer ⊢
      have hsent : ∀ u : Session String, u.delivered = (sendEvent world.toEnvironment event t).delivered →
          (CommittedFirst u ↔ (Opens world caller → world.delivers = true → ∀ t',
            (.ok () t : EStateM.Result String (Session String) Unit) = .ok () t' →
              event ∈ t'.committed)) := by
        intro u hu
        rw [committedFirst_of_sent hdelivered hu]
        constructor
        · intro h _ hdelivers t' heq
          rw [← (EStateM.Result.ok.inj heq).2]
          exact h hdelivers
        · exact fun h hdelivers => h hopens hdelivers t rfl
      cases world.command .outer .commit with
      | some e => exact hsent _ rfl
      | none =>
        refine hsent _ ?_
        dsimp only
        rw [leave_delivered, flushOnCommit_nil (by rw [commit_buffer, sendEvent_buffer, hbuffer]),
          commit_delivered]
  · obtain ⟨e, t, herror, hdelivered⟩ := transaction_of_not_opens _ hopens
    rw [herror]
    exact iff_of_true (.of_delivered hdelivered) fun h => absurd h hopens

end

end AlsaqiBackend.Events
