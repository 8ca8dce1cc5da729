import AlsaqiBackend.Db.Transaction

/-!
# Dispatch of transactional events

Events that a body enqueues are to be dispatched once the outermost transaction has committed, in
their order and at most once; those of bodies that are rolled back are not, and a rollback inside a
body that catches it leaves the events of the body alone. That is `TransactionalEvents`, and
`transactionalEvents_iff` says for which trees of nested calls it holds.

All calls of a tree share one buffer, but every call flushes the whole of it when it commits and
clears the whole of it when it rolls back. So an inner call is harmless only when the buffer is empty
at that moment (`CallsMeetEmptyBuffer`). `exec_of_clean` follows a run in which that is so: nothing is
dispatched before the end, and the buffer of a body holds the events of the body itself.
`clean_of_exec` is the converse: a run in which nothing is dispatched early and nothing is dropped is
such a run.
-/

namespace AlsaqiBackend.Db

variable {ω ε : Type}

/-! ## The property -/

/-- Every dispatch comes behind the commit of the outermost transaction. -/
def AfterOutermostCommit (log : List (LogEntry ε)) : Prop :=
  ∀ before e after, log = before ++ .dispatch e :: after → .commit true ∈ before

/-- Along the run of the body, no inner call that fails and is caught drops events that were in the
buffer when it was called: they are still there, or dispatched. -/
def KeepsBufferedEvents (isExternal : Bool) (dispatchMs : ε → ℕ) :
    Body ω ε → DbState ω ε → Prop
  | .done, _ => True
  | .throw, _ => True
  | .write w rest, s => KeepsBufferedEvents isExternal dispatchMs rest (s.write w)
  | .enqueue e rest, s => KeepsBufferedEvents isExternal dispatchMs rest (s.enqueueEvent e)
  | .transaction caught inner rest, s =>
    let t := afterCall isExternal dispatchMs inner s
    KeepsBufferedEvents isExternal dispatchMs inner (enterContext isExternal s).begin ∧
    match inner.outcome, caught with
    | .returned, _ => KeepsBufferedEvents isExternal dispatchMs rest t
    | .threw, true =>
      (∀ e ∈ s.buffer.getD [], e ∈ t.buffer.getD [] ∨ e ∈ t.dispatched) ∧
        KeepsBufferedEvents isExternal dispatchMs rest t
    | .threw, false => True

/-- What the buffer is for. -/
structure TransactionalEvents (isExternal : Bool) (dispatchMs : ε → ℕ) (body : Body ω ε) :
    Prop where
  /-- An event is dispatched only after the outermost transaction has committed. -/
  afterCommit : AfterOutermostCommit (runOutermost isExternal dispatchMs body).1.log
  /-- Events are dispatched in the order in which they were enqueued. -/
  inOrder : (runOutermost isExternal dispatchMs body).1.dispatched.Sublist body.enqueued
  /-- Events are dispatched at most once. -/
  atMostOnce : (runOutermost isExternal dispatchMs body).1.dispatched.Nodup
  /-- No event that is enqueued in a body that is rolled back, or inside it, is dispatched. -/
  notRolledBack : ∀ inner ∈ body.extent, inner.outcome = .threw → ∀ e ∈ inner.enqueued,
    e ∉ (runOutermost isExternal dispatchMs body).1.dispatched
  /-- A rollback that is caught does not drop the events that were already buffered. -/
  keepsBuffered :
    KeepsBufferedEvents isExternal dispatchMs body (enterContext isExternal .init).begin

/-- Every inner call that returns or is caught starts when no event is buffered, and the body of one
that returns enqueues none itself. The flag says whether an event is buffered. -/
def CallsMeetEmptyBuffer : Bool → Body ω ε → Prop
  | _, .done => True
  | _, .throw => True
  | buffered, .write _ rest => CallsMeetEmptyBuffer buffered rest
  | _, .enqueue _ rest => CallsMeetEmptyBuffer true rest
  | buffered, .transaction caught inner rest =>
    CallsMeetEmptyBuffer buffered inner ∧
    match inner.outcome, caught with
    | .returned, _ => buffered = false ∧ inner.directEvents = [] ∧ CallsMeetEmptyBuffer false rest
    | .threw, true => buffered = false ∧ CallsMeetEmptyBuffer false rest
    | .threw, false => True

/-! ## The flush -/

/-- A flush hands over the first events of the buffer. -/
theorem flushLoop_beginning (dispatchMs : ε → ℕ) (elapsed : ℕ) (pending : List ε) :
    flushLoop dispatchMs elapsed pending <+: pending := by
  induction pending generalizing elapsed with
  | nil => exact List.prefix_refl _
  | cons event pending ih =>
    simp only [flushLoop]
    split_ifs
    · exact List.nil_prefix
    · exact List.prefix_cons_inj event |>.2 (ih _)

/-- A flush hands over an event when there is one. -/
theorem flushLoop_eq_nil_iff (dispatchMs : ε → ℕ) (pending : List ε) :
    flushLoop dispatchMs 0 pending = [] ↔ pending = [] := by
  cases pending with
  | nil => simp [flushLoop]
  | cons event pending => simp [flushLoop, FLUSH_DEADLINE_MS]

/-! ## What a call does to the log and the buffer -/

/-- The state in which the body of an inner call ends. -/
def bodyEnd (isExternal : Bool) (dispatchMs : ε → ℕ) (inner : Body ω ε) (s : DbState ω ε) :
    DbState ω ε :=
  (exec isExternal dispatchMs inner (enterContext isExternal s).begin).1

variable {isExternal : Bool} {dispatchMs : ε → ℕ}

/-- A call logs its end, and what it flushes. -/
theorem afterCall_log (inner : Body ω ε) (s : DbState ω ε) :
    (afterCall isExternal dispatchMs inner s).log = (bodyEnd isExternal dispatchMs inner s).log ++
      match inner.outcome with
      | .returned => .commit s.buffer.isNone ::
          (flushLoop dispatchMs 0 ((bodyEnd isExternal dispatchMs inner s).buffer.getD [])).map
            .dispatch
      | .threw => [.rollback s.buffer.isNone] := by
  rw [afterCall_eq, bodyEnd]
  cases inner.outcome with
  | returned =>
    unfold DbState.flushOnCommit
    cases h : (exec isExternal dispatchMs inner (enterContext isExternal s).begin).1.buffer <;>
      simp [leaveContext, h, flushLoop]
  | threw => simp [leaveContext, DbState.rollback]

/-- An inner call leaves the buffer empty. -/
theorem afterCall_buffer {inner : Body ω ε} {s : DbState ω ε} (hs : s.buffer.isSome)
    (ht : (bodyEnd isExternal dispatchMs inner s).buffer.isSome) :
    (afterCall isExternal dispatchMs inner s).buffer = some [] := by
  obtain ⟨events, hevents⟩ := Option.isSome_iff_exists.1 ht
  rw [bodyEnd] at hevents
  rw [afterCall_eq]
  cases inner.outcome <;>
    simp [leaveContext, hs, DbState.flushOnCommit, DbState.discardOnRollback, DbState.rollback,
      hevents]

/-- A body inside a call keeps the buffer in place, and adds to the log, but no commit of the
outermost transaction. -/
theorem exec_log (isExternal : Bool) (dispatchMs : ε → ℕ) (body : Body ω ε) (s : DbState ω ε)
    (hs : s.buffer.isSome) :
    (exec isExternal dispatchMs body s).1.buffer.isSome ∧
    ∃ entries, (exec isExternal dispatchMs body s).1.log = s.log ++ entries ∧
      .commit true ∉ entries := by
  induction body generalizing s with
  | done => exact ⟨hs, [], by simp [exec], by simp⟩
  | throw => exact ⟨hs, [], by simp [exec], by simp⟩
  | write w rest ih =>
    have h := ih (s.write w) (by simpa using hs)
    rw [DbState.write_log] at h
    exact h
  | enqueue e rest ih =>
    obtain ⟨events, hevents⟩ := Option.isSome_iff_exists.1 hs
    have he : s.enqueueEvent e = { s with buffer := some (events ++ [e]) } := by
      simp [DbState.enqueueEvent, hevents]
    rw [exec, he]
    exact ih { s with buffer := some (events ++ [e]) } rfl
  | transaction caught inner rest ihinner ihrest =>
    obtain ⟨hbody, inside, hinside, hnone⟩ := ihinner (enterContext isExternal s).begin (by simp)
    rw [DbState.begin_log, enterContext_log] at hinside
    have hbuffer : (afterCall isExternal dispatchMs inner s).buffer = some [] :=
      afterCall_buffer hs hbody
    have hlog : ∃ entries, (afterCall isExternal dispatchMs inner s).log = s.log ++ entries ∧
        .commit true ∉ entries := by
      rw [afterCall_log, bodyEnd, hinside]
      refine ⟨_, List.append_assoc _ _ _, ?_⟩
      cases inner.outcome <;> simp [hnone, Option.isSome_iff_ne_none.1 hs]
    rw [exec_transaction]
    split_ifs
    · exact ⟨by simp [hbuffer], hlog⟩
    · obtain ⟨hrest, later, hlater, hnone'⟩ :=
        ihrest (afterCall isExternal dispatchMs inner s) (by simp [hbuffer])
      obtain ⟨entries, hentries, hnone''⟩ := hlog
      refine ⟨hrest, entries ++ later, ?_, by simp [hnone', hnone'']⟩
      rw [hlater, hentries, List.append_assoc]

/-- When nothing is dispatched by the end of a body, nothing was when it started. -/
theorem dispatched_eq_nil_of_exec {body : Body ω ε} {s : DbState ω ε} (hs : s.buffer.isSome)
    (h : (exec isExternal dispatchMs body s).1.dispatched = []) : s.dispatched = [] := by
  obtain ⟨-, entries, hlog, -⟩ := exec_log isExternal dispatchMs body s hs
  unfold DbState.dispatched at h ⊢
  rw [hlog, List.filterMap_append] at h
  exact (List.append_eq_nil_iff.1 h).1

/-- What a call dispatches: the events that it flushes, when it returns. -/
theorem afterCall_dispatched (inner : Body ω ε) (s : DbState ω ε) :
    (afterCall isExternal dispatchMs inner s).dispatched =
      (bodyEnd isExternal dispatchMs inner s).dispatched ++
      match inner.outcome with
      | .returned =>
        flushLoop dispatchMs 0 ((bodyEnd isExternal dispatchMs inner s).buffer.getD [])
      | .threw => [] := by
  unfold DbState.dispatched
  rw [afterCall_log, List.filterMap_append]
  cases inner.outcome with
  | returned => simp [List.filterMap_map]
  | threw => rfl

/-! ## Clean runs -/

/-- In a run where the calls meet an empty buffer, nothing is dispatched, the buffer of a body that
returns holds the events of the body itself, and no call drops any. -/
theorem exec_of_clean (isExternal : Bool) (dispatchMs : ε → ℕ) (body : Body ω ε)
    (s : DbState ω ε) (events : List ε)
    (h : CallsMeetEmptyBuffer (!events.isEmpty) body) (hs : s.buffer = some events) :
    (exec isExternal dispatchMs body s).1.dispatched = s.dispatched ∧
    (body.outcome = .returned →
      (exec isExternal dispatchMs body s).1.buffer = some (events ++ body.directEvents)) ∧
    KeepsBufferedEvents isExternal dispatchMs body s := by
  induction body generalizing s events with
  | done => exact ⟨rfl, fun _ => by simp [exec, hs, Body.directEvents], trivial⟩
  | throw => exact ⟨rfl, fun hret => absurd hret (by simp [Body.outcome]), trivial⟩
  | write w rest ih =>
    have hw : (s.write w).dispatched = s.dispatched := by simp [DbState.dispatched]
    have h' := ih (s.write w) events h (by simpa using hs)
    rw [hw] at h'
    exact h'
  | enqueue e rest ih =>
    have he : s.enqueueEvent e = { s with buffer := some (events ++ [e]) } := by
      simp [DbState.enqueueEvent, hs]
    have hne : (!(events ++ [e]).isEmpty) = true := by simp
    have h' := ih { s with buffer := some (events ++ [e]) } (events ++ [e]) (hne ▸ h) rfl
    rw [List.append_assoc, List.singleton_append] at h'
    simp only [exec, KeepsBufferedEvents, he]
    exact h'
  | transaction caught inner rest ihinner ihrest =>
    obtain ⟨hclean, hcase⟩ := h
    have hbegin : (enterContext isExternal s).begin.buffer = some events := by simp [hs]
    have hbegin' : (enterContext isExternal s).begin.dispatched = s.dispatched := by
      simp [DbState.dispatched]
    obtain ⟨hdispatched, hbuffer, hkeeps⟩ := ihinner _ events hclean hbegin
    have hbuffer' : (afterCall isExternal dispatchMs inner s).buffer = some [] :=
      afterCall_buffer (by simp [hs]) (exec_log _ _ inner _ (by simp)).1
    simp only [exec_transaction, KeepsBufferedEvents, Body.outcome, Body.directEvents]
    cases hout : inner.outcome with
    | returned =>
      rw [hout] at hcase
      obtain ⟨hempty, hdirect, hrest⟩ := hcase
      obtain rfl : events = [] := by simpa using hempty
      -- The flush of the call finds an empty buffer.
      have hcall : (afterCall isExternal dispatchMs inner s).dispatched = s.dispatched := by
        rw [afterCall_dispatched, hout, bodyEnd, hdispatched, hbegin', hbuffer hout, hdirect]
        simp [flushLoop]
      have h' := ihrest (afterCall isExternal dispatchMs inner s) [] hrest hbuffer'
      rw [hcall] at h'
      exact ⟨h'.1, h'.2.1, hkeeps, h'.2.2⟩
    | threw =>
      have hcall : (afterCall isExternal dispatchMs inner s).dispatched = s.dispatched := by
        rw [afterCall_dispatched, hout, bodyEnd, hdispatched, hbegin', List.append_nil]
      cases caught with
      -- The body throws with the call, so it makes no promise on the buffer.
      | false => exact ⟨hcall, fun hret => absurd hret (by simp), hkeeps, trivial⟩
      | true =>
        rw [hout] at hcase
        obtain ⟨hempty, hrest⟩ := hcase
        obtain rfl : events = [] := by simpa using hempty
        have h' := ihrest (afterCall isExternal dispatchMs inner s) [] hrest hbuffer'
        rw [hcall] at h'
        exact ⟨h'.1, h'.2.1, hkeeps, by simp [hs], h'.2.2⟩

/-- A run that dispatches nothing and drops nothing is one where the calls meet an empty buffer. -/
theorem clean_of_exec (body : Body ω ε) (s : DbState ω ε) (events : List ε)
    (hs : s.buffer = some events) (hnone : (exec isExternal dispatchMs body s).1.dispatched = [])
    (hkeeps : KeepsBufferedEvents isExternal dispatchMs body s) :
    CallsMeetEmptyBuffer (!events.isEmpty) body := by
  induction body generalizing s events with
  | done => trivial
  | throw => trivial
  | write w rest ih => exact ih (s.write w) events (by simpa using hs) hnone hkeeps
  | enqueue e rest ih =>
    have he : (s.enqueueEvent e).buffer = some (events ++ [e]) := by
      simp [DbState.enqueueEvent, hs]
    have hne : (!(events ++ [e]).isEmpty) = true := by simp
    have h := ih (s.enqueueEvent e) (events ++ [e]) he hnone hkeeps
    rw [hne] at h
    exact h
  | transaction caught inner rest ihinner ihrest =>
    obtain ⟨hkeeps, hcase⟩ := hkeeps
    have hbegin : (enterContext isExternal s).begin.buffer = some events := by simp [hs]
    have hbuffer : (afterCall isExternal dispatchMs inner s).buffer = some [] :=
      afterCall_buffer (by simp [hs]) (exec_log _ _ inner _ (by simp)).1
    rw [exec_transaction] at hnone
    -- Nothing was dispatched up to the end of the call, nor up to the end of its body.
    have hcall : (afterCall isExternal dispatchMs inner s).dispatched = [] := by
      split_ifs at hnone
      · exact hnone
      · exact dispatched_eq_nil_of_exec (by simp [hbuffer]) hnone
    have hcall' := hcall
    rw [afterCall_dispatched, List.append_eq_nil_iff] at hcall'
    have hclean := ihinner _ events hbegin hcall'.1 hkeeps
    refine ⟨hclean, ?_⟩
    cases hout : inner.outcome with
    | returned =>
      obtain ⟨-, hend, -⟩ := exec_of_clean isExternal dispatchMs inner _ events hclean hbegin
      rw [hout, Outcome.propagates_returned, if_neg (by simp)] at hnone
      -- The flush of the call handed nothing over, so there was nothing in the buffer.
      rw [hout, bodyEnd, hend hout, Option.getD_some, flushLoop_eq_nil_iff,
        List.append_eq_nil_iff] at hcall'
      rw [hout] at hcase
      exact ⟨by simp [hcall'.2.1], hcall'.2.2, ihrest _ [] hbuffer hnone hcase⟩
    | threw =>
      cases caught with
      | false => trivial
      | true =>
        rw [hout, Outcome.propagates_threw, if_neg (by simp)] at hnone
        rw [hout] at hcase
        obtain ⟨hkept, hrest⟩ := hcase
        -- The rollback cleared the buffer, so what it kept is what was not there.
        have hempty : events = [] := by
          refine List.eq_nil_iff_forall_not_mem.2 fun e he => ?_
          have hkept' := hkept e (by simpa [hs] using he)
          rw [hbuffer, hcall] at hkept'
          simp at hkept'
        exact ⟨by simp [hempty], ihrest _ [] hbuffer hnone hrest⟩

/-! ## Trees -/

/-- What a body inside enqueues, the body enqueues. -/
theorem Body.enqueued_subset {body inner : Body ω ε} (h : inner ∈ body.inners) {e : ε}
    (he : e ∈ inner.enqueued) : e ∈ body.enqueued := by
  induction body with
  | done => exact absurd h List.not_mem_nil
  | throw => exact absurd h List.not_mem_nil
  | write w rest ih => exact ih h
  | enqueue e' rest ih => exact List.mem_cons_of_mem _ (ih h)
  | transaction caught call rest ihcall ihrest =>
    rw [Body.inners, List.mem_append, List.mem_cons] at h
    rw [Body.enqueued, List.mem_append]
    rcases h with (rfl | h) | h
    · exact Or.inl he
    · exact Or.inl (ihcall h)
    · split_ifs at h ⊢
      · exact absurd h List.not_mem_nil
      · exact Or.inr (ihrest h)

/-- The events of the body itself are among those that it enqueues, in their order. -/
theorem Body.directEvents_sublist (body : Body ω ε) :
    body.directEvents.Sublist body.enqueued := by
  induction body with
  | done => exact List.Sublist.refl _
  | throw => exact List.Sublist.refl _
  | write w rest ih => exact ih
  | enqueue e rest ih => exact ih.cons_cons e
  | transaction caught inner rest _ ihrest =>
    rw [Body.directEvents, Body.enqueued]
    split_ifs
    · exact List.nil_sublist _
    · exact ihrest.trans (List.sublist_append_right _ _)

/-- Where every event has a label of its own, those of the body itself are not those of the bodies
inside it. -/
theorem Body.notMem_directEvents {body inner : Body ω ε} (hnd : body.enqueued.Nodup)
    (h : inner ∈ body.inners) {e : ε} (he : e ∈ inner.enqueued) : e ∉ body.directEvents := by
  induction body with
  | done => exact List.not_mem_nil
  | throw => exact List.not_mem_nil
  | write w rest ih => exact ih hnd h
  | enqueue e' rest ih =>
    rw [Body.enqueued, List.nodup_cons] at hnd
    rw [Body.directEvents, List.mem_cons, not_or]
    refine ⟨?_, ih hnd.2 h⟩
    rintro rfl
    have h' : inner ∈ rest.inners := h
    exact hnd.1 (Body.enqueued_subset h' he)
  | transaction caught call rest ihcall ihrest =>
    rw [Body.inners, List.mem_append] at h
    rw [Body.enqueued] at hnd
    rw [Body.directEvents]
    split_ifs at h hnd ⊢
    · exact List.not_mem_nil
    · rcases h with h | h
      · -- The event comes from the call, whose events are not those of the rest.
        have hcall : e ∈ call.enqueued := by
          rcases List.mem_cons.1 h with rfl | h
          · exact he
          · exact Body.enqueued_subset h he
        exact fun hrest => List.disjoint_of_nodup_append hnd hcall
          (rest.directEvents_sublist.subset hrest)
      · exact ihrest hnd.of_append_right h

/-- The dispatched events are those that the log says are. -/
theorem DbState.mem_dispatched (s : DbState ω ε) (e : ε) :
    e ∈ s.dispatched ↔ .dispatch e ∈ s.log := by
  unfold DbState.dispatched
  rw [List.mem_filterMap]
  constructor
  · rintro ⟨entry, hentry, he⟩
    cases entry with
    | dispatch e' => rwa [← Option.some.inj he]
    | commit _ => exact absurd he (by simp)
    | rollback _ => exact absurd he (by simp)
  · intro h
    exact ⟨_, h, rfl⟩

/-- A log without dispatches before the commit of the outermost transaction is in order. -/
theorem afterOutermostCommit_append {entries : List (LogEntry ε)} (h : ∀ e, .dispatch e ∉ entries)
    (tail : List (LogEntry ε)) : AfterOutermostCommit (entries ++ .commit true :: tail) := by
  intro before e after hlog
  rcases List.append_eq_append_iff.1 hlog with ⟨l, rfl, hl⟩ | ⟨l, rfl, hl⟩
  · cases l with
    | nil => exact absurd (List.cons.inj hl).1 (by simp)
    | cons entry l =>
      obtain ⟨rfl, -⟩ := List.cons.inj hl
      simp
  · cases l with
    | nil => exact absurd (List.cons.inj hl).1 (by simp)
    | cons entry l =>
      obtain ⟨rfl, -⟩ := List.cons.inj hl
      exact absurd (by simp) (h e)

/-- When the calls meet an empty buffer, the events that the outermost call dispatches are events of
its body itself, and there are none when it throws. -/
theorem runOutermost_dispatched (isExternal : Bool) (dispatchMs : ε → ℕ) {body : Body ω ε}
    (h : CallsMeetEmptyBuffer false body) :
    (runOutermost isExternal dispatchMs body).1.dispatched <+: body.directEvents ∧
    (body.outcome = .threw → (runOutermost isExternal dispatchMs body).1.dispatched = []) := by
  obtain ⟨hnone, hbuffer, -⟩ := exec_of_clean isExternal dispatchMs body
    (enterContext isExternal .init).begin [] h (by simp [DbState.init])
  have hinit : (enterContext isExternal (.init : DbState ω ε)).begin.dispatched = [] := by
    simp [DbState.dispatched, DbState.init]
  have hrun : (runOutermost isExternal dispatchMs body).1.dispatched =
      (afterCall isExternal dispatchMs body .init).dispatched := rfl
  rw [hrun, afterCall_dispatched, bodyEnd, hnone, hinit, List.nil_append]
  cases hout : body.outcome with
  | returned =>
    rw [hbuffer hout]
    exact ⟨flushLoop_beginning dispatchMs 0 _, fun hthrew => absurd hthrew (by decide)⟩
  | threw => exact ⟨List.nil_prefix, fun _ => rfl⟩

/-- The trees whose events are dispatched as they should be: those where no inner call that returns
or is caught meets a buffered event. -/
theorem transactionalEvents_iff (isExternal : Bool) (dispatchMs : ε → ℕ) (tree : Tree ω ε) :
    TransactionalEvents isExternal dispatchMs tree.body ↔ CallsMeetEmptyBuffer false tree.body := by
  have hlog : (runOutermost isExternal dispatchMs tree.body).1.log =
      (afterCall isExternal dispatchMs tree.body .init).log := rfl
  rw [afterCall_log] at hlog
  constructor
  · rintro ⟨hafter, -, -, -, hkeeps⟩
    refine clean_of_exec tree.body _ [] (by simp [DbState.init]) ?_ hkeeps
    obtain ⟨-, entries, hentries, hno⟩ := exec_log isExternal dispatchMs tree.body
      (enterContext isExternal .init).begin (by simp)
    rw [DbState.begin_log, enterContext_log, show (DbState.init : DbState ω ε).log = [] from rfl,
      List.nil_append] at hentries
    -- A dispatch before the end of the body would come before the commit.
    refine List.eq_nil_iff_forall_not_mem.2 fun e he => hno ?_
    have hmem : .dispatch e ∈ entries := hentries ▸ (DbState.mem_dispatched _ e).1 he
    obtain ⟨before, after, rfl⟩ := List.append_of_mem hmem
    rw [bodyEnd, hentries, List.append_assoc, List.cons_append] at hlog
    exact List.mem_append_left _ (hafter before e _ hlog)
  · intro hclean
    obtain ⟨hfirst, hthrew⟩ := runOutermost_dispatched isExternal dispatchMs hclean
    obtain ⟨hnone, -, hkeeps⟩ := exec_of_clean isExternal dispatchMs tree.body
      (enterContext isExternal .init).begin [] hclean (by simp [DbState.init])
    have hsub := hfirst.sublist.trans tree.body.directEvents_sublist
    refine ⟨?_, hsub, hsub.nodup tree.events_nodup, ?_, hkeeps⟩
    · cases hout : tree.body.outcome with
      | returned =>
        rw [hlog, hout]
        refine afterOutermostCommit_append (fun e he => ?_) _
        rw [bodyEnd, ← DbState.mem_dispatched, hnone] at he
        simp [DbState.dispatched, DbState.init] at he
      | threw =>
        intro before e after hsplit
        have hmem : e ∈ (runOutermost isExternal dispatchMs tree.body).1.dispatched := by
          rw [DbState.mem_dispatched, hsplit]
          simp
        rw [hthrew hout] at hmem
        exact absurd hmem List.not_mem_nil
    · intro inner hinner hout e he hdispatched
      rcases List.mem_cons.1 hinner with rfl | hinner
      · rw [hthrew hout] at hdispatched
        exact absurd hdispatched List.not_mem_nil
      · exact Body.notMem_directEvents tree.events_nodup hinner he (hfirst.subset hdispatched)

/-- An event, an inner call that returns, and a throw: the event is dispatched although the outermost
transaction is rolled back. An event, an inner call that fails and is caught, and a return: the event
is lost although the outermost transaction is committed. -/
theorem nested_calls_break_events :
    ¬ TransactionalEvents false (fun _ => 1)
        (Body.enqueue 0 (.transaction false .done .throw) : Body ℕ ℕ) ∧
    ¬ TransactionalEvents true (fun _ => 1)
        (Body.enqueue 0 (.transaction false .done .throw) : Body ℕ ℕ) ∧
    ¬ TransactionalEvents false (fun _ => 1)
        (Body.enqueue 0 (.transaction true .throw .done) : Body ℕ ℕ) ∧
    ¬ TransactionalEvents true (fun _ => 1)
        (Body.enqueue 0 (.transaction true .throw .done) : Body ℕ ℕ) := by
  refine ⟨fun h => ?_, fun h => ?_, fun h => ?_, fun h => ?_⟩
  · exact h.notRolledBack _ List.mem_cons_self rfl 0 List.mem_cons_self (by decide)
  · exact h.notRolledBack _ List.mem_cons_self rfl 0 List.mem_cons_self (by decide)
  · exact absurd (h.keepsBuffered.2.1 0 (by decide)) (by decide)
  · exact absurd (h.keepsBuffered.2.1 0 (by decide)) (by decide)

end AlsaqiBackend.Db
