import AlsaqiBackend.Db.LockSafety
import Mathlib.Logic.Function.Basic

/-!
# Who runs statements in a transaction

A statement runs on the connection of its async context. A call of `transaction` puts its connection
into the context of its body, and there it stays: work that the body started and did not await still
has the connection after the call has ended. On the embedded database, where all calls share one
connection, a context that has it also skips the lock.

The system of this module has any number of calls of `transaction` and of statements outside them, on
the embedded database under the lock of `ReadWriteLock.lean`, on an external one with the connections
of a pool. Every command that is executed goes to a trace, with the call that issued it and the call
whose transaction was open on the connection. `Confined` says that they are the same.

A late command can break that, in both modes (`late_statement_in_other_transaction`). The main theorem
is `confined_along`: in a run where commands from the contexts of ended calls meet a connection that
no other call has, and open no transaction, every state is confined. The invariant is that the
transaction that is open on a connection is that of the call that has the connection, and it rests on
the safety of the lock.
-/

namespace AlsaqiBackend.Db

open AlsaqiBackend.Lib

/-- A connection of the pool, or the only one of the embedded database. -/
abbrev ConnectionId := ℕ

/-- The connection of the embedded database. -/
def embeddedConnection : ConnectionId := 0

/-- The commands that matter to transactions, and the other statements. -/
inductive SqlCommand
  | begin
  | commit
  | rollback
  | query
  deriving DecidableEq, Repr

/-- Whose transaction is open after a command, where `owner` was the one before. -/
def SqlCommand.openAfter (issuer : RequestId) : SqlCommand → Option RequestId → Option RequestId
  | .begin, none => some issuer
  | .begin, some owner => some owner
  | .commit, _ => none
  | .rollback, _ => none
  | .query, owner => owner

/-- Where a call of `transaction` stands: in its body, between its `COMMIT` or `ROLLBACK` and its
return, or behind it. -/
inductive CallPhase
  | running
  | ending
  | ended
  deriving DecidableEq, Repr

/-- A call of `transaction`: the connection in its context, and where it stands. -/
structure TransactionCall where
  connection : ConnectionId
  phase : CallPhase
  deriving DecidableEq, Repr

/-- A command that was executed: where, by whose context, and in whose transaction. -/
structure Executed where
  connection : ConnectionId
  issuer : RequestId
  owner : Option RequestId
  deriving DecidableEq, Repr

/-- The lock, the calls so far, which call has each connection, whose transaction is open on it, and
the commands that were executed. -/
structure ConnectionState where
  lock : LockState
  calls : RequestId → Option TransactionCall
  holder : ConnectionId → Option RequestId
  openBy : ConnectionId → Option RequestId
  trace : List Executed

namespace ConnectionState

/-- No call, and nothing open. -/
def init : ConnectionState := ⟨.init, fun _ => none, fun _ => none, fun _ => none, []⟩

/-- Execute a command on a connection. -/
def execute (s : ConnectionState) (issuer : RequestId) (c : ConnectionId) (command : SqlCommand) :
    ConnectionState :=
  { s with
    openBy := Function.update s.openBy c (command.openAfter issuer (s.openBy c))
    trace := s.trace ++ [⟨c, issuer, s.openBy c⟩] }

/-- A call has moved on. -/
def setCall (s : ConnectionState) (id : RequestId) (call : TransactionCall) : ConnectionState :=
  { s with calls := Function.update s.calls id (some call) }

/-- Another call has the connection, or none. -/
def setHolder (s : ConnectionState) (c : ConnectionId) (id : Option RequestId) : ConnectionState :=
  { s with holder := Function.update s.holder c id }

/-- A caller outside every transaction may use the connection: on the embedded database it holds the
lock, in one of the given ways, and on an external one the pool gave it a connection that nobody
has. -/
def MayUse (isExternal : Bool) (s : ConnectionState) (id : RequestId) (c : ConnectionId)
    (types : List LockType) : Prop :=
  s.calls id = none ∧
    if isExternal then s.holder c = none
    else c = embeddedConnection ∧ ∃ type ∈ types, (id, type) ∈ s.lock.held

instance (isExternal : Bool) (s : ConnectionState) (id : RequestId) (c : ConnectionId)
    (types : List LockType) : Decidable (s.MayUse isExternal id c types) :=
  inferInstanceAs (Decidable (_ ∧ _))

end ConnectionState

/-- What can happen. -/
inductive ConnectionAction
  /-- A caller outside every transaction asks for the lock. -/
  | acquire (type : LockType) (id : RequestId)
  /-- The timer of a request for the lock. -/
  | expire (type : LockType) (id : RequestId)
  /-- A call of `transaction` has its connection, and issues `BEGIN`. -/
  | enter (id : RequestId) (c : ConnectionId)
  /-- A context of the call issues a command, now or after the call has ended. -/
  | issue (id : RequestId) (command : SqlCommand)
  /-- The call issues its `COMMIT` or `ROLLBACK`. -/
  | finish (id : RequestId) (committed : Bool)
  /-- The call ends, and gives up the lock or the connection. -/
  | leave (id : RequestId)
  /-- A statement outside every transaction. -/
  | statement (id : RequestId) (c : ConnectionId)
  /-- It gives up the lock. -/
  | unlock (id : RequestId) (type : LockType)
  deriving DecidableEq, Repr

/-- One step. On the embedded database an inner call of `transaction` is a sequence of commands of
its context; on an external one it enters as a call of its own. -/
def connectionStep (isExternal : Bool) (s : ConnectionState) :
    ConnectionAction → Option ConnectionState
  | .acquire type id =>
    if isExternal then none
    else
      let request : LockAction := match type with
        | .read => .acquireRead id
        | .write => .acquireWrite id
      (lockStep s.lock request).map fun lock => { s with lock := lock }
  | .expire type id =>
    if isExternal then none
    else (lockStep s.lock (.expire type id)).map fun lock => { s with lock := lock }
  | .enter id c =>
    if s.MayUse isExternal id c [.write] then
      some (((s.setCall id ⟨c, .running⟩).setHolder c (some id)).execute id c .begin)
    else none
  | .issue id command =>
    match s.calls id with
    | none => none
    | some call =>
      -- No lock is asked for, and whether the call has ended makes no difference.
      if isExternal ∧ command ≠ .query then none else some (s.execute id call.connection command)
  | .finish id committed =>
    match s.calls id with
    | some ⟨c, .running⟩ =>
      some ((s.setCall id ⟨c, .ending⟩).execute id c (if committed then .commit else .rollback))
    | _ => none
  | .leave id =>
    match s.calls id with
    | some ⟨c, .ending⟩ =>
      let t := (s.setCall id ⟨c, .ended⟩).setHolder c none
      if isExternal then some t
      else (lockStep s.lock (.release id .write)).map fun lock => { t with lock := lock }
    | _ => none
  | .statement id c =>
    if s.MayUse isExternal id c [.read, .write] then some (s.execute id c .query) else none
  | .unlock id type =>
    -- A call of `transaction` gives the lock up only when it leaves.
    if isExternal ∨ s.calls id ≠ none then none
    else (lockStep s.lock (.release id type)).map fun lock => { s with lock := lock }

/-- Every command that was executed in an open transaction was issued by a context of the call that
opened it. -/
def Confined (s : ConnectionState) : Prop :=
  ∀ executed ∈ s.trace, ∀ owner, executed.owner = some owner → executed.issuer = owner

/-- Late work does no harm: a command from the context of a call that has ended is not a `BEGIN` and
meets a connection that no other call has, and when a call ends, no transaction of an inner call that
was not awaited is open on its connection. -/
def LateWorkHarmless (s : ConnectionState) : ConnectionAction → Prop
  | .issue id command =>
    match s.calls id with
    | some ⟨c, .ended⟩ => command ≠ .begin ∧ s.holder c = none
    | _ => True
  | .leave id => ∀ call ∈ s.calls id, s.openBy call.connection = none
  | _ => True

instance (s : ConnectionState) (a : ConnectionAction) : Decidable (LateWorkHarmless s a) :=
  match a with
  | .issue id command =>
    match h : s.calls id with
    | some ⟨c, .ended⟩ =>
      decidable_of_iff (command ≠ .begin ∧ s.holder c = none) (by simp [LateWorkHarmless, h])
    | some ⟨_, .running⟩ => isTrue (by simp [LateWorkHarmless, h])
    | some ⟨_, .ending⟩ => isTrue (by simp [LateWorkHarmless, h])
    | none => isTrue (by simp [LateWorkHarmless, h])
  | .leave id => inferInstanceAs (Decidable (∀ call ∈ s.calls id, _))
  | .acquire _ _ => isTrue trivial
  | .expire _ _ => isTrue trivial
  | .enter _ _ => isTrue trivial
  | .finish _ _ => isTrue trivial
  | .statement _ _ => isTrue trivial
  | .unlock _ _ => isTrue trivial

/-! ## The invariant -/

/-- A call that has a connection is one that has not ended, on the embedded database it holds the
lock, and the transaction that is open on a connection is that of the call that has it. -/
structure ConnectionInv (isExternal : Bool) (s : ConnectionState) : Prop where
  lock : s.lock.Inv
  holder_iff : ∀ c id, s.holder c = some id ↔
    ∃ phase, s.calls id = some ⟨c, phase⟩ ∧ phase ≠ .ended
  held : isExternal = false → ∀ c id, s.holder c = some id →
    c = embeddedConnection ∧ (id, .write) ∈ s.lock.held
  owner_holds : ∀ c owner, s.openBy c = some owner → s.holder c = some owner
  confined : Confined s

/-- The invariant at the start. -/
theorem ConnectionState.init_inv (isExternal : Bool) : ConnectionInv isExternal .init where
  lock := LockState.init_inv
  holder_iff := by simp [init]
  held := by simp [init]
  owner_holds := by simp [init]
  confined := by simp [Confined, init]

/-- A handle of the lock is lost only when it is released. -/
theorem lockStep_held {s t : LockState} {a : LockAction} (hst : lockStep s a = some t)
    {h : RequestId × LockType} (hheld : h ∈ s.held)
    (hne : ∀ id type, a = .release id type → h ≠ (id, type)) : h ∈ t.held := by
  cases a with
  | acquireRead id =>
    obtain ⟨-, rfl⟩ := lockStep_acquireRead_iff.1 hst
    exact List.mem_append_left _ hheld
  | acquireWrite id =>
    obtain ⟨-, rfl⟩ := lockStep_acquireWrite_iff.1 hst
    exact List.mem_append_left _ hheld
  | release id type =>
    obtain ⟨-, rfl⟩ := lockStep_release_iff.1 hst
    exact List.mem_append_left _ ((List.mem_erase_of_ne (hne id type rfl)).2 hheld)
  | expire type id =>
    obtain rfl := lockStep_expire_iff.1 hst
    exact List.mem_append_left _ hheld

namespace ConnectionInv

variable {isExternal : Bool} {s : ConnectionState}

/-- A connection that a caller outside every transaction may use is one that no call has. -/
theorem holder_eq_none (h : ConnectionInv isExternal s) {id : RequestId} {c : ConnectionId}
    {types : List LockType} (hmay : s.MayUse isExternal id c types) : s.holder c = none := by
  obtain ⟨hcall, hmay⟩ := hmay
  cases isExternal with
  | true => exact hmay
  | false =>
    obtain ⟨-, type, -, hheld⟩ := hmay
    -- The lock is exclusive, so the call that had the connection would be this one.
    cases hholder : s.holder c with
    | none => rfl
    | some id' =>
      obtain ⟨-, hwrite⟩ := h.held rfl c id' hholder
      rw [h.lock.exclusive id' hwrite, List.mem_singleton, Prod.mk.injEq] at hheld
      obtain ⟨phase, hphase, -⟩ := (h.holder_iff c id').1 hholder
      rw [← hheld.1, hcall] at hphase
      exact absurd hphase (by simp)

/-- A command on a connection keeps the invariant when only a transaction of its issuer can be open
there, and what is open afterwards is that of the call that has the connection. -/
theorem execute (h : ConnectionInv isExternal s) {id : RequestId} {c : ConnectionId}
    {command : SqlCommand} (hissuer : ∀ owner, s.openBy c = some owner → id = owner)
    (hopen : ∀ owner, command.openAfter id (s.openBy c) = some owner → s.holder c = some owner) :
    ConnectionInv isExternal (s.execute id c command) where
  lock := h.lock
  holder_iff := h.holder_iff
  held := h.held
  owner_holds := by
    intro c' owner howner
    simp only [ConnectionState.execute] at howner ⊢
    by_cases hc : c' = c
    · subst hc
      rw [Function.update_self] at howner
      exact hopen owner howner
    · rw [Function.update_of_ne hc] at howner
      exact h.owner_holds c' owner howner
  confined := by
    intro executed hexecuted owner howner
    rcases List.mem_append.1 hexecuted with hold | hnew
    · exact h.confined executed hold owner howner
    · rw [List.mem_singleton.1 hnew] at howner ⊢
      exact hissuer owner howner

/-- A command of the call that has the connection keeps the invariant. -/
theorem execute_of_holder (h : ConnectionInv isExternal s) {id : RequestId} {c : ConnectionId}
    (hholder : s.holder c = some id) (command : SqlCommand) :
    ConnectionInv isExternal (s.execute id c command) := by
  have hissuer : ∀ owner, s.openBy c = some owner → id = owner := by
    intro owner howner
    exact Option.some.inj (hholder.symm.trans (h.owner_holds c owner howner))
  refine h.execute hissuer fun owner howner => ?_
  rw [hholder, Option.some.injEq]
  cases hopen : s.openBy c with
  | none =>
    rw [hopen] at howner
    cases command <;> simp_all [SqlCommand.openAfter]
  | some owner' =>
    have heq := hissuer owner' hopen
    rw [hopen] at howner
    cases command <;> simp_all [SqlCommand.openAfter]

/-- A command other than `BEGIN` on a connection that no call has keeps the invariant. -/
theorem execute_of_free (h : ConnectionInv isExternal s) {c : ConnectionId}
    (hholder : s.holder c = none) (id : RequestId) {command : SqlCommand}
    (hcommand : command ≠ .begin) : ConnectionInv isExternal (s.execute id c command) := by
  have hopen : s.openBy c = none := by
    cases hopen : s.openBy c with
    | none => rfl
    | some owner => exact absurd (h.owner_holds c owner hopen) (by simp [hholder])
  refine h.execute (by simp [hopen]) fun owner howner => ?_
  rw [hopen] at howner
  cases command <;> simp_all [SqlCommand.openAfter]

/-- A step of the lock that releases no handle of a call that has a connection keeps the
invariant. -/
theorem lockStep (h : ConnectionInv isExternal s) {a : LockAction} {lock : LockState}
    (hst : Db.lockStep s.lock a = some lock)
    (hne : ∀ c id, s.holder c = some id → ∀ id' type, a = .release id' type →
      (id, LockType.write) ≠ (id', type)) :
    ConnectionInv isExternal { s with lock := lock } where
  lock := lockStep_inv h.lock hst
  holder_iff := h.holder_iff
  held := by
    intro hmode c id hholder
    obtain ⟨hc, hheld⟩ := h.held hmode c id hholder
    exact ⟨hc, lockStep_held hst hheld (hne c id hholder)⟩
  owner_holds := h.owner_holds
  confined := h.confined

/-- The call that has a connection. -/
theorem holder_of_call (h : ConnectionInv isExternal s) {id : RequestId} {c : ConnectionId}
    {phase : CallPhase} (hcall : s.calls id = some ⟨c, phase⟩) (hphase : phase ≠ .ended) :
    s.holder c = some id :=
  (h.holder_iff c id).2 ⟨phase, hcall, hphase⟩

/-- A new call gets a connection that no call has. -/
theorem enter (h : ConnectionInv isExternal s) {id : RequestId} {c : ConnectionId}
    (hmay : s.MayUse isExternal id c [.write]) :
    ConnectionInv isExternal ((s.setCall id ⟨c, .running⟩).setHolder c (some id)) where
  lock := h.lock
  holder_iff := by
    have hfree := h.holder_eq_none hmay
    intro c' id'
    simp only [ConnectionState.setCall, ConnectionState.setHolder, Function.update_apply]
    by_cases hid : id' = id
    · subst hid
      by_cases hc : c' = c
      · simp [hc]
      · -- A new call has no connection before.
        have hother : s.holder c' ≠ some id' := by
          intro hholder
          obtain ⟨phase, hphase, -⟩ := (h.holder_iff c' id').1 hholder
          rw [hmay.1] at hphase
          exact absurd hphase (by simp)
        simp [hc, hother, Ne.symm hc]
    · by_cases hc : c' = c
      · subst hc
        have hother := h.holder_iff c' id'
        rw [hfree] at hother
        simpa [hid, Ne.symm hid] using hother
      · simpa [hid, hc] using h.holder_iff c' id'
  held := by
    intro hmode c' id' hholder
    simp only [ConnectionState.setHolder, Function.update_apply] at hholder
    split_ifs at hholder with hc
    · obtain rfl := Option.some.inj hholder
      obtain ⟨-, hmay⟩ := hmay
      simp only [hmode, Bool.false_eq_true, if_false, List.mem_singleton, exists_eq_left] at hmay
      exact ⟨hc.trans hmay.1, hmay.2⟩
    · exact h.held hmode c' id' hholder
  owner_holds := by
    intro c' owner howner
    have hholder := h.owner_holds c' owner howner
    have hc : c' ≠ c := by
      rintro rfl
      rw [h.holder_eq_none hmay] at hholder
      exact absurd hholder (by simp)
    simpa [ConnectionState.setCall, ConnectionState.setHolder, Function.update_of_ne hc] using hholder
  confined := h.confined

/-- A call that has not ended moves on and keeps its connection. -/
theorem setPhase (h : ConnectionInv isExternal s) {id : RequestId} {c : ConnectionId}
    {phase phase' : CallPhase} (hcall : s.calls id = some ⟨c, phase⟩) (hphase : phase ≠ .ended)
    (hphase' : phase' ≠ .ended) : ConnectionInv isExternal (s.setCall id ⟨c, phase'⟩) where
  lock := h.lock
  holder_iff := by
    intro c' id'
    simp only [ConnectionState.setCall, Function.update_apply]
    by_cases hid : id' = id
    · subst hid
      rw [h.holder_iff c' id', hcall]
      simp only [if_true, Option.some.injEq, TransactionCall.mk.injEq]
      constructor
      · rintro ⟨_, ⟨hc, -⟩, -⟩
        exact ⟨phase', ⟨hc, rfl⟩, hphase'⟩
      · rintro ⟨_, ⟨hc, -⟩, -⟩
        exact ⟨phase, ⟨hc, rfl⟩, hphase⟩
    · simpa [hid] using h.holder_iff c' id'
  held := h.held
  owner_holds := h.owner_holds
  confined := h.confined

/-- A call ends and gives up its connection, on which no transaction is open. -/
theorem leave (h : ConnectionInv isExternal s) {id : RequestId} {c : ConnectionId}
    {phase : CallPhase} (hcall : s.calls id = some ⟨c, phase⟩) (hphase : phase ≠ .ended)
    (hopen : s.openBy c = none) :
    ConnectionInv isExternal ((s.setCall id ⟨c, .ended⟩).setHolder c none) where
  lock := h.lock
  holder_iff := by
    have hholder := h.holder_of_call hcall hphase
    intro c' id'
    have hiff := h.holder_iff c' id'
    simp only [ConnectionState.setCall, ConnectionState.setHolder, Function.update_apply]
    by_cases hid : id' = id
    · subst hid
      rw [hcall] at hiff
      by_cases hc : c' = c
      · simp [hc]
      · simp_all [Ne.symm hc]
    · by_cases hc : c' = c
      · subst hc
        rw [hholder, Option.some.injEq] at hiff
        simpa [hid, Ne.symm hid] using hiff
      · simpa [hid, hc] using hiff
  held := by
    intro hmode c' id' hholder
    simp only [ConnectionState.setHolder, Function.update_apply] at hholder
    split_ifs at hholder
    exact h.held hmode c' id' hholder
  owner_holds := by
    intro c' owner howner
    have hc : c' ≠ c := by
      rintro rfl
      exact absurd (hopen.symm.trans howner) (by simp)
    have hholder := h.owner_holds c' owner howner
    simpa [ConnectionState.setCall, ConnectionState.setHolder, Function.update_of_ne hc] using hholder
  confined := h.confined

end ConnectionInv

/-- A step in which late work does no harm keeps the invariant. -/
theorem connectionStep_inv {isExternal : Bool} (s : ConnectionState) (a : ConnectionAction)
    (t : ConnectionState) (h : ConnectionInv isExternal s) (hlate : LateWorkHarmless s a)
    (hst : connectionStep isExternal s a = some t) : ConnectionInv isExternal t := by
  cases a with
  | acquire type id =>
    simp only [connectionStep, Option.ite_none_left_eq_some, Option.map_eq_some_iff] at hst
    obtain ⟨-, lock, hlock, rfl⟩ := hst
    refine h.lockStep hlock fun c id' _ id'' type' heq => ?_
    cases type <;> exact absurd heq (by simp)
  | expire type id =>
    simp only [connectionStep, Option.ite_none_left_eq_some, Option.map_eq_some_iff] at hst
    obtain ⟨-, lock, hlock, rfl⟩ := hst
    exact h.lockStep hlock fun c id' _ id'' type' heq => absurd heq (by simp)
  | enter id c =>
    simp only [connectionStep, Option.ite_none_right_eq_some, Option.some.injEq] at hst
    obtain ⟨hmay, rfl⟩ := hst
    exact (h.enter hmay).execute_of_holder (by simp [ConnectionState.setHolder]) .begin
  | issue id command =>
    simp only [connectionStep] at hst
    split at hst
    · exact absurd hst (by simp)
    next call hcall =>
      simp only [Option.ite_none_left_eq_some, Option.some.injEq] at hst
      obtain ⟨-, rfl⟩ := hst
      obtain ⟨c, phase⟩ := call
      by_cases hphase : phase = .ended
      · -- Late work: by the condition, nobody has the connection.
        subst hphase
        simp only [LateWorkHarmless, hcall] at hlate
        exact h.execute_of_free hlate.2 id hlate.1
      · exact h.execute_of_holder (h.holder_of_call hcall hphase) command
  | finish id committed =>
    simp only [connectionStep] at hst
    split at hst
    next c hcall =>
      obtain rfl := Option.some.inj hst
      have hholder := h.holder_of_call hcall (by decide)
      exact (h.setPhase hcall (by decide) (by decide)).execute_of_holder hholder _
    · exact absurd hst (by simp)
  | leave id =>
    simp only [connectionStep] at hst
    split at hst
    next c hcall =>
      have hleft := h.leave hcall (by decide) (hlate _ hcall)
      split_ifs at hst
      · obtain rfl := Option.some.inj hst
        exact hleft
      · obtain ⟨lock, hlock, rfl⟩ := Option.map_eq_some_iff.1 hst
        refine hleft.lockStep hlock fun c' id' hholder id'' type heq => ?_
        -- The call has ended, so no connection is its own.
        obtain ⟨rfl, rfl⟩ := LockAction.release.inj heq
        rintro hid
        obtain ⟨rfl, -⟩ := Prod.mk.inj hid
        obtain ⟨phase, hphase, hended⟩ := (hleft.holder_iff c' id').1 hholder
        simp only [ConnectionState.setCall, ConnectionState.setHolder, Function.update_self,
          Option.some.injEq, TransactionCall.mk.injEq] at hphase
        exact hended hphase.2.symm
    · exact absurd hst (by simp)
  | statement id c =>
    simp only [connectionStep, Option.ite_none_right_eq_some, Option.some.injEq] at hst
    obtain ⟨hmay, rfl⟩ := hst
    exact h.execute_of_free (h.holder_eq_none hmay) id (by decide)
  | unlock id type =>
    simp only [connectionStep, Option.ite_none_left_eq_some, Option.map_eq_some_iff, not_or,
      not_not] at hst
    obtain ⟨⟨-, hcall⟩, lock, hlock, rfl⟩ := hst
    refine h.lockStep hlock fun c id' hholder id'' type' heq => ?_
    -- The handle is that of a statement, and no connection belongs to it.
    obtain ⟨rfl, rfl⟩ := LockAction.release.inj heq
    rintro hid
    obtain ⟨rfl, -⟩ := Prod.mk.inj hid
    obtain ⟨phase, hphase, -⟩ := (h.holder_iff c id').1 hholder
    rw [hcall] at hphase
    exact absurd hphase (by simp)

/-- In a run where late work does no harm, every command that is executed in an open transaction was
issued by a context of the call that opened it. -/
theorem confined_along (isExternal : Bool) (acts : List ConnectionAction)
    (h : Guarded (connectionStep isExternal) LateWorkHarmless .init acts) :
    Along (connectionStep isExternal) Confined .init acts :=
  along_of_guarded (fun _ hs => hs.confined) connectionStep_inv
    (ConnectionState.init_inv isExternal) h

/-- A call with a statement in its body and one that comes late, when nobody has the connection, and
then a second call. -/
def lateWorkBetweenCalls : List ConnectionAction :=
  [.acquire .write 0, .enter 0 0, .issue 0 .query, .finish 0 true, .leave 0, .issue 0 .query,
    .acquire .write 1, .enter 1 0, .issue 1 .query, .finish 1 false, .leave 1]

/-- The two calls are confined in every state of that run. -/
theorem confined_along_lateWorkBetweenCalls :
    (run (connectionStep false) .init lateWorkBetweenCalls).isSome ∧
      Along (connectionStep false) Confined .init lateWorkBetweenCalls :=
  ⟨by decide, confined_along false lateWorkBetweenCalls (by decide)⟩

/-- A statement that the body of a call did not await is executed in the transaction of the next call:
on the embedded database it skips the lock that the next call holds, and on an external one the next
call got its connection from the pool. -/
theorem late_statement_in_other_transaction :
    (∃ s, run (connectionStep false) .init
        [.acquire .write 0, .enter 0 0, .finish 0 true, .leave 0,
          .acquire .write 1, .enter 1 0, .issue 0 .query] = some s ∧
      ⟨0, 0, some 1⟩ ∈ s.trace ∧ ¬ Confined s) ∧
    ∃ s, run (connectionStep true) .init
        [.enter 0 7, .finish 0 true, .leave 0, .enter 1 7, .issue 0 .query] = some s ∧
      ⟨7, 0, some 1⟩ ∈ s.trace ∧ ¬ Confined s := by
  constructor
  · refine ⟨_, rfl, by decide, fun h => ?_⟩
    exact absurd (h ⟨0, 0, some 1⟩ (by decide) 1 rfl) (by decide)
  · refine ⟨_, rfl, by decide, fun h => ?_⟩
    exact absurd (h ⟨7, 0, some 1⟩ (by decide) 1 rfl) (by decide)

end AlsaqiBackend.Db
