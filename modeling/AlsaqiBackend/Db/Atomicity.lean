import AlsaqiBackend.Db.Transaction
import Mathlib.Data.List.Pairwise

/-!
# Atomicity of nested transactions

A tree of calls is atomic when nothing that it executes is committed if the outermost body throws,
and everything that bodies that return wrote is committed if it returns. `atomic_iff` says for which
trees that is so.

Which writes are committed is `Survives`, and `runOutermost_committed` proves it by induction on the
tree. On an external database every call has a connection of its own, so the writes of a body are
committed exactly when it returns, whatever happens around it. On the embedded database the first
call to end, wherever it is nested, ends the transaction of all of them: it decides on the writes that
came before it, and what follows an inner call is written outside any transaction.
-/

namespace AlsaqiBackend.Db

variable {ω ε : Type}

namespace Body

/-- The writes of the body before its first inner call. -/
def writesBeforeCall : Body ω ε → List ω
  | done => []
  | throw => []
  | write w rest => w :: rest.writesBeforeCall
  | enqueue _ rest => rest.writesBeforeCall
  | transaction _ _ _ => []

/-- The writes of the body behind its first inner call. -/
def writesAfterCall : Body ω ε → List ω
  | done => []
  | throw => []
  | write _ rest => rest.writesAfterCall
  | enqueue _ rest => rest.writesAfterCall
  | transaction caught inner rest =>
    if inner.outcome.propagates caught then [] else rest.directWrites

/-- How the first call to end inside the body ends. -/
def firstInnerEnd : Body ω ε → Option Outcome
  | done => none
  | throw => none
  | write _ rest => rest.firstInnerEnd
  | enqueue _ rest => rest.firstInnerEnd
  | transaction _ inner _ => some (inner.firstInnerEnd.getD inner.outcome)

/-- How the first call to end, of the call of the body and those inside it, ends. -/
def firstEnd (body : Body ω ε) : Outcome := body.firstInnerEnd.getD body.outcome

/-- A write of the body comes before its first inner call or behind it. -/
theorem directWrites_eq (body : Body ω ε) :
    body.directWrites = body.writesBeforeCall ++ body.writesAfterCall := by
  induction body with
  | done => rfl
  | throw => rfl
  | write w rest ih => simp [directWrites, writesBeforeCall, writesAfterCall, ih]
  | enqueue e rest ih => exact ih
  | transaction caught inner rest _ _ => rfl

/-- The write is one of the body and is committed. -/
def Survives (isExternal : Bool) (body : Body ω ε) (w : ω) : Prop :=
  if isExternal then body.outcome = .returned ∧ w ∈ body.directWrites
  else w ∈ body.writesAfterCall ∨ (w ∈ body.writesBeforeCall ∧ body.firstEnd = .returned)

/-- A write of a body inside the body is committed. -/
def InnerSurvives (isExternal : Bool) (body : Body ω ε) (w : ω) : Prop :=
  ∃ inner ∈ body.inners, inner.Survives isExternal w

/-- A write of the body or of one inside it is committed. -/
def ExtentSurvives (isExternal : Bool) (body : Body ω ε) (w : ω) : Prop :=
  body.Survives isExternal w ∨ body.InnerSurvives isExternal w

/-- The bodies inside are those of the inner call, and those of what follows it. -/
theorem innerSurvives_transaction (isExternal caught : Bool) (inner rest : Body ω ε) (w : ω) :
    (transaction caught inner rest).InnerSurvives isExternal w ↔
      inner.ExtentSurvives isExternal w ∨
        (inner.outcome.propagates caught = false ∧ rest.InnerSurvives isExternal w) := by
  unfold InnerSurvives ExtentSurvives InnerSurvives
  cases h : inner.outcome.propagates caught <;> simp [inners, h, or_and_right, exists_or, or_assoc]

end Body

open Body

/-! ## What a call commits -/

/-- A call commits what its body leaves pending, when the body returns. -/
theorem afterCall_committed (isExternal : Bool) (dispatchMs : ε → ℕ) (inner : Body ω ε)
    (s : DbState ω ε) :
    (afterCall isExternal dispatchMs inner s).committed =
      let t := (exec isExternal dispatchMs inner (enterContext isExternal s).begin).1
      t.committed ++ if inner.outcome = .returned then t.connection.pending else [] := by
  rw [afterCall_eq]
  cases inner.outcome <;> simp [leaveContext, DbState.rollback]

/-- On the embedded database, no transaction is open behind a call. -/
theorem afterCall_connection_embedded (dispatchMs : ε → ℕ) (inner : Body ω ε) (s : DbState ω ε) :
    (afterCall false dispatchMs inner s).connection = .idle := by
  rw [afterCall_eq]
  cases inner.outcome <;> simp [leaveContext, DbState.rollback]

/-- On an external database, a call leaves the connection of its caller as it is. -/
theorem afterCall_connection_external (dispatchMs : ε → ℕ) (inner : Body ω ε) (s : DbState ω ε) :
    (afterCall true dispatchMs inner s).connection = s.connection := by
  rw [afterCall_eq]
  rfl

/-! ## The embedded database -/

/-- What a body does on the embedded database in a transaction with the writes `pending`: the first
call to end inside it decides on them. -/
def RunsInTransaction (dispatchMs : ε → ℕ) (body : Body ω ε) : Prop :=
  ∀ (s : DbState ω ε) (pending : List ω), s.connection = .open pending →
    (exec false dispatchMs body s).1.connection =
      (if body.firstInnerEnd.isSome then .idle else .open (pending ++ body.writesBeforeCall)) ∧
    ∀ w, w ∈ (exec false dispatchMs body s).1.committed ↔ w ∈ s.committed ∨
      (body.firstInnerEnd = some .returned ∧ w ∈ pending ++ body.writesBeforeCall) ∨
      w ∈ body.writesAfterCall ∨ body.InnerSurvives false w

/-- What a body does on the embedded database outside a transaction: its writes are committed. -/
def RunsOutsideTransaction (dispatchMs : ε → ℕ) (body : Body ω ε) : Prop :=
  ∀ s : DbState ω ε, s.connection = .idle → ∀ w,
    w ∈ (exec false dispatchMs body s).1.committed ↔
      w ∈ s.committed ∨ w ∈ body.directWrites ∨ body.InnerSurvives false w

/-- A call on the embedded database commits the writes that were pending when the first call to end
in it returns. -/
theorem afterCall_embedded {dispatchMs : ε → ℕ} {inner : Body ω ε}
    (h : RunsInTransaction dispatchMs inner) (s : DbState ω ε) (w : ω) :
    w ∈ (afterCall false dispatchMs inner s).committed ↔ w ∈ s.committed ∨
      (inner.firstEnd = .returned ∧ w ∈ s.connection.pending) ∨ inner.ExtentSurvives false w := by
  obtain ⟨hconn, hcomm⟩ := h (enterContext false s).begin s.connection.pending
    (by simp [enterContext])
  have hs : (enterContext false s).begin.committed = s.committed := by simp [enterContext]
  rw [afterCall_committed, List.mem_append, hcomm, hs, hconn]
  unfold ExtentSurvives Survives firstEnd
  cases hend : inner.firstInnerEnd with
  | none =>
    -- No call ended inside, so the end of this one decides.
    cases inner.outcome
    · simp [Connection.pending]
      tauto
    · simp [Connection.pending]
  | some o =>
    -- The transaction was over before the call ended.
    cases o
    · simp [Connection.pending]
      tauto
    · simp [Connection.pending]

/-- An inner call of a body leaves the rest of it outside any transaction. -/
theorem exec_transaction_embedded {dispatchMs : ε → ℕ} {caught : Bool} {inner rest : Body ω ε}
    (hinner : RunsInTransaction dispatchMs inner) (hrest : RunsOutsideTransaction dispatchMs rest)
    (s : DbState ω ε) (w : ω) :
    w ∈ (exec false dispatchMs (.transaction caught inner rest) s).1.committed ↔ w ∈ s.committed ∨
      (inner.firstEnd = .returned ∧ w ∈ s.connection.pending) ∨
      w ∈ (Body.transaction caught inner rest).directWrites ∨
      (Body.transaction caught inner rest).InnerSurvives false w := by
  have hcall := afterCall_embedded hinner s w
  have hrest := hrest _ (afterCall_connection_embedded dispatchMs inner s) w
  rw [exec_transaction, innerSurvives_transaction, directWrites]
  cases inner.outcome.propagates caught with
  | true => simp [hcall]
  | false =>
    simp only [Bool.false_eq_true, if_false, hrest, hcall, true_and, or_assoc, or_left_comm]

/-- On the embedded database, a body that starts outside a transaction ends outside one. -/
theorem exec_connection_idle (dispatchMs : ε → ℕ) (body : Body ω ε) {s : DbState ω ε}
    (hs : s.connection = .idle) : (exec false dispatchMs body s).1.connection = .idle := by
  induction body generalizing s with
  | done => exact hs
  | throw => exact hs
  | write w rest ih =>
    have hw : (s.write w).connection = .idle := by simp [DbState.write, hs]
    exact ih hw
  | enqueue e rest ih =>
    have he : (s.enqueueEvent e).connection = .idle := by simpa using hs
    exact ih he
  | transaction caught inner rest _ ihrest =>
    have hcall := afterCall_connection_embedded dispatchMs inner s
    rw [exec_transaction]
    split_ifs
    · exact hcall
    · exact ihrest hcall

/-- Both for every body, by induction on it. -/
theorem runs_embedded (dispatchMs : ε → ℕ) (body : Body ω ε) :
    RunsInTransaction dispatchMs body ∧ RunsOutsideTransaction dispatchMs body := by
  induction body with
  | done | throw =>
    refine ⟨fun s pending hs => ?_, fun s hs w => ?_⟩
    · simp [exec, firstInnerEnd, writesBeforeCall, writesAfterCall, InnerSurvives, inners, hs]
    · simp [exec, directWrites, InnerSurvives, inners]
  | write v rest ih =>
    refine ⟨fun s pending hs => ?_, fun s hs w => ?_⟩
    · have hv : (s.write v).connection = .open (pending ++ [v]) := by simp [DbState.write, hs]
      have hv' : (s.write v).committed = s.committed := by simp [DbState.write, hs]
      have h := ih.1 (s.write v) (pending ++ [v]) hv
      rw [hv', List.append_assoc, List.singleton_append] at h
      exact h
    · have hv : (s.write v).connection = .idle := by simp [DbState.write, hs]
      have hv' : (s.write v).committed = s.committed ++ [v] := by simp [DbState.write, hs]
      have h := ih.2 (s.write v) hv w
      rw [hv', List.mem_append, List.mem_singleton, or_assoc] at h
      rw [exec, h, directWrites, List.mem_cons, or_assoc]
      rfl
  | enqueue e rest ih =>
    refine ⟨fun s pending hs => ?_, fun s hs w => ?_⟩
    · have h := ih.1 (s.enqueueEvent e) pending (by simpa using hs)
      rw [DbState.enqueueEvent_committed] at h
      exact h
    · have h := ih.2 (s.enqueueEvent e) (by simpa using hs) w
      rw [DbState.enqueueEvent_committed] at h
      exact h
  | transaction caught inner rest ihinner ihrest =>
    refine ⟨fun s pending hs => ⟨?_, fun w => ?_⟩, fun s hs w => ?_⟩
    · have hcall := afterCall_connection_embedded dispatchMs inner s
      rw [exec_transaction]
      simp only [firstInnerEnd, Option.isSome_some, if_true]
      split_ifs
      · exact hcall
      · exact exec_connection_idle dispatchMs rest hcall
    · -- What was pending is decided by the call, and what follows it is committed at once.
      rw [exec_transaction_embedded ihinner.1 ihrest.2, hs]
      simp only [firstInnerEnd, writesBeforeCall, writesAfterCall, directWrites, firstEnd,
        Connection.pending, List.append_nil, Option.some.injEq]
    · rw [exec_transaction_embedded ihinner.1 ihrest.2, hs]
      simp [Connection.pending]

/-! ## An external database -/

/-- What a body does on its own connection, in a transaction with the writes `pending`: its writes
stay pending, and what is committed meanwhile comes from the calls inside it. -/
def RunsOnOwnConnection (dispatchMs : ε → ℕ) (body : Body ω ε) : Prop :=
  ∀ (s : DbState ω ε) (pending : List ω), s.connection = .open pending →
    (exec true dispatchMs body s).1.connection = .open (pending ++ body.directWrites) ∧
    ∀ w, w ∈ (exec true dispatchMs body s).1.committed ↔
      w ∈ s.committed ∨ body.InnerSurvives true w

/-- A call on an external database commits the writes of its body when it returns. -/
theorem afterCall_external {dispatchMs : ε → ℕ} {inner : Body ω ε}
    (h : RunsOnOwnConnection dispatchMs inner) (s : DbState ω ε) (w : ω) :
    w ∈ (afterCall true dispatchMs inner s).committed ↔
      w ∈ s.committed ∨ inner.ExtentSurvives true w := by
  -- The body starts on a connection of its own, with nothing pending.
  obtain ⟨hconn, hcomm⟩ := h (enterContext true s).begin [] (by simp [enterContext]; rfl)
  have hs : (enterContext true s).begin.committed = s.committed := by simp [enterContext]
  rw [afterCall_committed, List.mem_append, hcomm, hs, hconn]
  unfold ExtentSurvives Survives
  cases inner.outcome
  · simp [Connection.pending, or_assoc, or_comm]
  · simp

/-- Every body, by induction on it. -/
theorem runs_external (dispatchMs : ε → ℕ) (body : Body ω ε) :
    RunsOnOwnConnection dispatchMs body := by
  induction body with
  | done =>
    intro s pending hs
    simp [exec, directWrites, InnerSurvives, inners, hs]
  | throw =>
    intro s pending hs
    simp [exec, directWrites, InnerSurvives, inners, hs]
  | write v rest ih =>
    intro s pending hs
    have hv : (s.write v).connection = .open (pending ++ [v]) := by simp [DbState.write, hs]
    have hv' : (s.write v).committed = s.committed := by simp [DbState.write, hs]
    have h := ih (s.write v) (pending ++ [v]) hv
    rw [hv', List.append_assoc, List.singleton_append] at h
    exact h
  | enqueue e rest ih =>
    intro s pending hs
    have h := ih (s.enqueueEvent e) pending (by simpa using hs)
    rw [DbState.enqueueEvent_committed] at h
    exact h
  | transaction caught inner rest ihinner ihrest =>
    intro s pending hs
    have hcall := afterCall_connection_external dispatchMs inner s
    have hmem := afterCall_external ihinner s
    rw [hs] at hcall
    simp only [exec_transaction, innerSurvives_transaction, directWrites]
    cases inner.outcome.propagates caught with
    | true => simp [hcall, hmem]
    | false => simp [ihrest _ _ hcall, hmem, or_assoc]

/-! ## Trees -/

/-- The committed writes of a tree of calls are those that survive in one of its bodies. -/
theorem runOutermost_committed (isExternal : Bool) (dispatchMs : ε → ℕ) (body : Body ω ε) (w : ω) :
    w ∈ (runOutermost isExternal dispatchMs body).1.committed ↔
      ∃ inner ∈ body.extent, inner.Survives isExternal w := by
  have hextent : (∃ inner ∈ body.extent, inner.Survives isExternal w) ↔
      body.ExtentSurvives isExternal w := by
    simp [extent, ExtentSurvives, InnerSurvives]
  rw [hextent]
  change w ∈ (afterCall isExternal dispatchMs body .init).committed ↔ _
  cases isExternal with
  | false =>
    rw [afterCall_embedded (runs_embedded dispatchMs body).1]
    simp [DbState.init, Connection.pending]
  | true =>
    rw [afterCall_external (runs_external dispatchMs body)]
    simp [DbState.init]

/-- All or nothing: when the outermost body throws, no write is committed, and when it returns, every
write of every body that returned is. -/
def Atomic (isExternal : Bool) (dispatchMs : ε → ℕ) (body : Body ω ε) : Prop :=
  match runOutermost isExternal dispatchMs body with
  | (s, .threw) => s.committed = []
  | (s, .returned) =>
    ∀ inner ∈ body.extent, inner.outcome = .returned → ∀ w ∈ inner.directWrites, w ∈ s.committed

/-- The trees that are atomic. An external database fails for a body that returns, with writes,
inside one that throws at last. The embedded one fails for a write behind an inner call, and for a
body with writes that the first call to end does not end as the outermost body ends. -/
def AtomicityCondition (isExternal : Bool) (body : Body ω ε) : Prop :=
  match isExternal, body.outcome with
  | true, .returned => True
  | true, .threw => ∀ inner ∈ body.extent, inner.outcome = .returned → inner.directWrites = []
  | false, .returned => ∀ inner ∈ body.extent, inner.outcome = .returned →
      inner.writesBeforeCall ≠ [] → inner.firstEnd = .returned
  | false, .threw => ∀ inner ∈ body.extent, inner.writesAfterCall = [] ∧
      (inner.writesBeforeCall ≠ [] → inner.firstEnd = .threw)

/-- A write that survives is a write of its body. -/
theorem Body.Survives.mem_directWrites {isExternal : Bool} {body : Body ω ε} {w : ω}
    (h : body.Survives isExternal w) : w ∈ body.directWrites := by
  cases isExternal with
  | true => exact h.2
  | false =>
    rw [directWrites_eq, List.mem_append]
    exact h.elim Or.inr fun hbefore => Or.inl hbefore.1

/-- In a tree, a write belongs to one body. -/
theorem Tree.body_unique (tree : Tree ω ε) {inner inner' : Body ω ε} (h : inner ∈ tree.body.extent)
    (h' : inner' ∈ tree.body.extent) {w : ω} (hw : w ∈ inner.directWrites)
    (hw' : w ∈ inner'.directWrites) : inner = inner' := by
  by_contra hne
  have hdisjoint := (List.nodup_flatMap.1 tree.writes_nodup).2
  have hsymm : Std.Symm (Function.onFun List.Disjoint (directWrites (ω := ω) (ε := ε))) :=
    ⟨fun _ _ hab _ hb ha => hab ha hb⟩
  exact hdisjoint.forall h h' hne hw hw'

/-- In a tree, a write that comes before the first inner call of its body does not come behind it. -/
theorem Tree.notMem_writesAfterCall (tree : Tree ω ε) {inner : Body ω ε}
    (h : inner ∈ tree.body.extent) {w : ω} (hw : w ∈ inner.writesBeforeCall) :
    w ∉ inner.writesAfterCall := by
  have hnd := (List.nodup_flatMap.1 tree.writes_nodup).1 inner h
  rw [directWrites_eq] at hnd
  exact List.disjoint_of_nodup_append hnd hw

/-- When the outermost body throws on the embedded database, nothing may survive. -/
theorem nothing_survives_embedded_iff (body : Body ω ε) :
    (∀ w, ¬ ∃ inner ∈ body.extent, inner.Survives false w) ↔
      ∀ inner ∈ body.extent, inner.writesAfterCall = [] ∧
        (inner.writesBeforeCall ≠ [] → inner.firstEnd = .threw) := by
  constructor
  · intro h inner hinner
    refine ⟨List.eq_nil_iff_forall_not_mem.2 fun w hw => h w ⟨inner, hinner, Or.inl hw⟩, ?_⟩
    intro hne
    obtain ⟨w, hw⟩ := List.exists_mem_of_ne_nil _ hne
    cases hend : inner.firstEnd with
    | threw => rfl
    | returned => exact absurd ⟨inner, hinner, Or.inr ⟨hw, hend⟩⟩ (h w)
  · rintro h w ⟨inner, hinner, hafter | ⟨hbefore, hend⟩⟩
    · rw [(h inner hinner).1] at hafter
      exact absurd hafter List.not_mem_nil
    · rw [(h inner hinner).2 (List.ne_nil_of_mem hbefore)] at hend
      exact absurd hend (by decide)

/-- When the outermost body throws on an external database, nothing may survive. -/
theorem nothing_survives_external_iff (body : Body ω ε) :
    (∀ w, ¬ ∃ inner ∈ body.extent, inner.Survives true w) ↔
      ∀ inner ∈ body.extent, inner.outcome = .returned → inner.directWrites = [] := by
  constructor
  · intro h inner hinner hret
    exact List.eq_nil_iff_forall_not_mem.2 fun w hw => h w ⟨inner, hinner, hret, hw⟩
  · rintro h w ⟨inner, hinner, hret, hw⟩
    rw [h inner hinner hret] at hw
    exact absurd hw List.not_mem_nil

/-- When the outermost body returns on the embedded database, the writes of the bodies that returned
have to survive. -/
theorem returned_survive_embedded_iff (tree : Tree ω ε) :
    (∀ inner ∈ tree.body.extent, inner.outcome = .returned → ∀ w ∈ inner.directWrites,
      ∃ inner' ∈ tree.body.extent, inner'.Survives false w) ↔
      ∀ inner ∈ tree.body.extent, inner.outcome = .returned → inner.writesBeforeCall ≠ [] →
        inner.firstEnd = .returned := by
  constructor
  · intro h inner hinner hret hne
    obtain ⟨w, hw⟩ := List.exists_mem_of_ne_nil _ hne
    have hdirect : w ∈ inner.directWrites := by
      rw [directWrites_eq]
      exact List.mem_append_left _ hw
    -- The write survives, and its label says that it does so in this body.
    obtain ⟨inner', hinner', hsurvives⟩ := h inner hinner hret w hdirect
    obtain rfl := tree.body_unique hinner hinner' hdirect hsurvives.mem_directWrites
    rcases hsurvives with hafter | ⟨-, hend⟩
    · exact absurd hafter (tree.notMem_writesAfterCall hinner hw)
    · exact hend
  · intro h inner hinner hret w hw
    refine ⟨inner, hinner, ?_⟩
    rw [directWrites_eq, List.mem_append] at hw
    rcases hw with hbefore | hafter
    · exact Or.inr ⟨hbefore, h inner hinner hret (List.ne_nil_of_mem hbefore)⟩
    · exact Or.inl hafter

/-- Which trees of nested calls are atomic. -/
theorem atomic_iff (isExternal : Bool) (dispatchMs : ε → ℕ) (tree : Tree ω ε) :
    Atomic isExternal dispatchMs tree.body ↔ AtomicityCondition isExternal tree.body := by
  have hcommitted := runOutermost_committed isExternal dispatchMs tree.body
  have houtcome : (runOutermost isExternal dispatchMs tree.body).2 = tree.body.outcome :=
    (transaction_outcome _ _ _ _).trans (exec_outcome _ _ _ _)
  unfold Atomic AtomicityCondition
  rcases hrun : runOutermost isExternal dispatchMs tree.body with ⟨s, o⟩
  simp only [hrun] at hcommitted houtcome
  rw [← houtcome]
  cases o with
  | threw =>
    have hnil : s.committed = [] ↔
        ∀ w, ¬ ∃ inner ∈ tree.body.extent, inner.Survives isExternal w := by
      simp only [List.eq_nil_iff_forall_not_mem, hcommitted]
    cases isExternal with
    | false => exact hnil.trans (nothing_survives_embedded_iff tree.body)
    | true => exact hnil.trans (nothing_survives_external_iff tree.body)
  | returned =>
    simp only [hcommitted]
    cases isExternal with
    | false => exact returned_survive_embedded_iff tree
    | true => exact iff_true_intro fun inner hinner hret w hw => ⟨inner, hinner, hret, hw⟩

/-- A write, an inner call that writes and returns, and a throw: the inner call is committed on both
databases, and on the embedded one the first write too. A write, an inner call that fails and is
caught, and a return: the write is lost on the embedded database. -/
theorem nested_calls_not_atomic :
    ¬ Atomic false (fun _ => 0)
        (Body.write 0 (.transaction false (.write 1 .done) .throw) : Body ℕ ℕ) ∧
    ¬ Atomic true (fun _ => 0)
        (Body.write 0 (.transaction false (.write 1 .done) .throw) : Body ℕ ℕ) ∧
    ¬ Atomic false (fun _ => 0) (Body.write 0 (.transaction true .throw .done) : Body ℕ ℕ) := by
  refine ⟨fun h => ?_, fun h => ?_, fun h => ?_⟩
  · exact absurd (show [0, 1] = [] from h) (by decide)
  · exact absurd (show [1] = [] from h) (by decide)
  · exact absurd (h _ List.mem_cons_self rfl 0 List.mem_cons_self) List.not_mem_nil

end AlsaqiBackend.Db
