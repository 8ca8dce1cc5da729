import AlsaqiBackend.Db.Migrations

/-!
# Every migration is applied once

`applied_once_iff` says in which runs of calls each version is applied once: in those in which every
`rollback` that commits has deleted the record of its version. The code does not look at the number of
deleted rows (`rollback_of_unapplied`).

The invariant is `MigrationInv`: the rows that open transactions have inserted or deleted are not in each
other's way (`Apart`), and each call has committed what its place in the list of pending migrations says
(`RunInv`).
-/

namespace AlsaqiBackend.Migrations

open Lib

variable {localeCompare : String → String → Ordering} {s t : MigrationState} {i : ℕ}

/-- The row that the statement of a call has seen, or deleted. -/
def Call.sees : Call → Option ℕ
  | .rollback _ (.deleting seen) => seen
  | .rollback _ (.committing removed) => removed
  | _ => none

/-- Two open transactions that are not in each other's way. -/
structure Apart (a b : Call) : Prop where
  inserted : ∀ row ∈ a.inserted, ∀ row' ∈ b.inserted, row.version ≠ row'.version ∧ row.ctid ≠ row'.ctid
  removed : ∀ ctid ∈ a.removed, ctid ∉ b.removed
  sees : ∀ ctid ∈ a.sees, ∀ row ∈ b.inserted, row.ctid ≠ ctid
  seen : ∀ ctid ∈ b.sees, ∀ row ∈ a.inserted, row.ctid ≠ ctid

theorem Apart.symm {a b : Call} (h : Apart a b) : Apart b a where
  inserted := by
    intro row hrow row' hrow'
    obtain ⟨hversion, hctid⟩ := h.inserted row' hrow' row hrow
    exact ⟨hversion.symm, hctid.symm⟩
  removed ctid hb ha := h.removed ctid ha hb
  sees := h.seen
  seen := h.sees

/-- A transaction that has done nothing to the table is in nobody's way. -/
theorem Apart.of_idle {a : Call} (hinserted : a.inserted = none) (hremoved : a.removed = none)
    (hsees : a.sees = none) (b : Call) : Apart a b where
  inserted row hrow := by rw [hinserted] at hrow; cases hrow
  removed ctid hctid := by rw [hremoved] at hctid; cases hctid
  sees ctid hctid := by rw [hsees] at hctid; cases hctid
  seen ctid _ row hrow := by rw [hinserted] at hrow; cases hrow

/-- A run has committed its migrations up to its place, and the next one is there. -/
structure RunInv (s : MigrationState) (i : ℕ) (call : RunCall) : Prop where
  commits : s.commitsOf i = (call.pending.take call.done).map fun m => ⟨i, m.version, .up⟩
  reading : call.phase = .reading → call.pending = []
  going : call.phase = .returned ∨ call.done < call.pending.length ∨
    (call.pending = [] ∧ (call.phase = .reading ∨ call.phase = .threw))

/-- A row that has been inserted is new, and its version is. -/
structure NewRow (s : MigrationState) (row : MigrationRecord) : Prop where
  version : ¬ s.IsRecorded row.version
  ctid_lt : row.ctid < s.nextCtid
  ctid_ne : ∀ row' ∈ s.records, row'.ctid ≠ row.ctid

/-- What an open transaction has done to the table. -/
structure CallInv (s : MigrationState) (i : ℕ) (call : Call) : Prop where
  run : ∀ run, call = .run run → RunInv s i run
  /-- The row of a run is that of its migration. -/
  row : ∀ available pending done row, call = .run ⟨available, pending, done, .committing row⟩ →
    ∃ m, pending[done]? = some m ∧ row.version = m.version
  inserted : ∀ row ∈ call.inserted, NewRow s row
  sees_lt : ∀ ctid ∈ call.sees, ctid < s.nextCtid
  sees : ∀ migration phase, call = .rollback migration phase → ∀ ctid ∈ call.sees,
    ∀ row ∈ s.records, row.ctid = ctid → row.version = migration.version
  removed : ∀ ctid ∈ call.removed, ∃ row ∈ s.records, row.ctid = ctid

/-- The invariant of the runs. -/
structure MigrationInv (s : MigrationState) : Prop where
  ctid_lt : ∀ row ∈ s.records, row.ctid < s.nextCtid
  versions : (s.records.map MigrationRecord.version).Nodup
  ctids : ∀ row ∈ s.records, ∀ row' ∈ s.records, row.ctid = row'.ctid → row = row'
  call_lt : ∀ c ∈ s.commits, c.call < s.calls.length
  calls : ∀ (i : ℕ) (call : Call), s.calls[i]? = some call → CallInv s i call
  apart : ∀ (i j : ℕ) (a b : Call), i ≠ j → s.calls[i]? = some a → s.calls[j]? = some b → Apart a b

/-- At the beginning. -/
theorem MigrationInv.init : MigrationInv .init where
  ctid_lt row h := absurd h List.not_mem_nil
  versions := List.nodup_nil
  ctids row h := absurd h List.not_mem_nil
  call_lt c h := absurd h List.not_mem_nil
  calls i call h := by cases h
  apart i j a b _ h := by cases h

/-- A call keeps its invariant where the commits of others leave its rows alone. -/
theorem CallInv.mono {call : Call} (h : CallInv s i call) (hctid : s.nextCtid ≤ t.nextCtid)
    (hcommits : t.commitsOf i = s.commitsOf i)
    (hinserted : ∀ row ∈ call.inserted, ∀ row' ∈ t.records,
      row' ∈ s.records ∨ (row'.version ≠ row.version ∧ row'.ctid ≠ row.ctid))
    (hsees : ∀ ctid ∈ call.sees, ∀ row ∈ t.records, row ∈ s.records ∨ row.ctid ≠ ctid)
    (hremoved : ∀ ctid ∈ call.removed, ∀ row ∈ s.records, row.ctid = ctid → row ∈ t.records) :
    CallInv t i call where
  run run heq :=
    ⟨hcommits.trans (h.run run heq).commits, (h.run run heq).reading, (h.run run heq).going⟩
  row := h.row
  inserted := by
    intro row hrow
    obtain ⟨hversion, hlt, hne⟩ := h.inserted row hrow
    refine ⟨?_, hlt.trans_le hctid, ?_⟩
    · intro hrecorded
      obtain ⟨row', hrow', heq⟩ := List.mem_map.1 hrecorded
      rcases hinserted row hrow row' hrow' with hold | ⟨hnew, -⟩
      · exact hversion (heq ▸ List.mem_map_of_mem hold)
      · exact hnew heq
    · intro row' hrow'
      rcases hinserted row hrow row' hrow' with hold | ⟨-, hnew⟩
      · exact hne row' hold
      · exact hnew
  sees_lt ctid hsee := (h.sees_lt ctid hsee).trans_le hctid
  sees := by
    intro migration phase heq ctid hsee row hrow hrowctid
    rcases hsees ctid hsee row hrow with hold | hne
    · exact h.sees migration phase heq ctid hsee row hold hrowctid
    · exact absurd hrowctid hne
  removed := by
    intro ctid hrem
    obtain ⟨row, hrow, heq⟩ := h.removed ctid hrem
    exact ⟨row, hremoved ctid hrem row hrow heq, heq⟩

/-- Nor does it lose it where the table and the commits are as before. -/
theorem CallInv.congr {call : Call} (h : CallInv s i call) (hrecords : t.records = s.records)
    (hctid : s.nextCtid ≤ t.nextCtid) (hcommits : t.commits = s.commits) : CallInv t i call := by
  refine h.mono hctid ?_ ?_ ?_ ?_
  · unfold MigrationState.commitsOf
    rw [hcommits]
  · intro row _ row' hrow'
    exact Or.inl (hrecords ▸ hrow')
  · intro ctid _ row hrow
    exact Or.inl (hrecords ▸ hrow)
  · intro ctid _ row hrow _
    rw [hrecords]
    exact hrow

/-! ## A call moves on -/

/-- The changed call is apart from the others, which are apart from each other. -/
theorem MigrationInv.apart_set (h : MigrationInv s) {new : Call}
    (hapart : ∀ j b, j ≠ i → s.calls[j]? = some b → Apart new b) (j k : ℕ) (a b : Call) (hjk : j ≠ k)
    (hj : (s.calls.set i new)[j]? = some a) (hk : (s.calls.set i new)[k]? = some b) : Apart a b := by
  rcases getElem?_set_cases hj with ⟨rfl, rfl⟩ | ⟨hji, ha⟩
  · rcases getElem?_set_cases hk with ⟨rfl, rfl⟩ | ⟨hki, hb⟩
    · exact absurd rfl hjk
    · exact hapart k b hki hb
  · rcases getElem?_set_cases hk with ⟨rfl, rfl⟩ | ⟨hki, hb⟩
    · exact (hapart j a hji ha).symm
    · exact h.apart j k a b hjk ha hb

/-- A call that has done nothing to the table. -/
theorem CallInv.of_idle {call : Call} (hrun : ∀ run, call = .run run → RunInv s i run)
    (hinserted : call.inserted = none) (hremoved : call.removed = none) (hsees : call.sees = none) :
    CallInv s i call where
  run := hrun
  row := by
    rintro available pending done row rfl
    cases hinserted
  inserted row hrow := by rw [hinserted] at hrow; cases hrow
  sees_lt ctid hctid := by rw [hsees] at hctid; cases hctid
  sees migration phase _ ctid hctid := by rw [hsees] at hctid; cases hctid
  removed ctid hctid := by rw [hremoved] at hctid; cases hctid

/-- One call is changed, and the table is not. -/
theorem MigrationInv.setCall (h : MigrationInv s) {old new : Call} (hi : s.calls[i]? = some old)
    (hcall : CallInv s i new) (hapart : ∀ j b, j ≠ i → s.calls[j]? = some b → Apart new b) :
    MigrationInv (s.setCall i new) where
  ctid_lt := h.ctid_lt
  versions := h.versions
  ctids := h.ctids
  call_lt := by
    intro c hc
    show c.call < (s.calls.set i new).length
    rw [List.length_set]
    exact h.call_lt c hc
  calls := by
    intro j call hj
    rcases getElem?_set_cases hj with ⟨rfl, rfl⟩ | ⟨-, hold⟩
    · exact hcall.congr rfl le_rfl rfl
    · exact (h.calls j call hold).congr rfl le_rfl rfl
  apart := h.apart_set hapart

/-- A call moves on without anything done to the table. -/
theorem MigrationInv.setIdle (h : MigrationInv s) {old new : Call} (hi : s.calls[i]? = some old)
    (hrun : ∀ run, new = .run run → RunInv s i run) (hinserted : new.inserted = none)
    (hremoved : new.removed = none) (hsees : new.sees = none) : MigrationInv (s.setCall i new) :=
  h.setCall hi (CallInv.of_idle hrun hinserted hremoved hsees) fun _ b _ _ =>
    Apart.of_idle hinserted hremoved hsees b

/-- A new call. -/
theorem MigrationInv.newCall (h : MigrationInv s) {call : Call}
    (hrun : ∀ run, call = .run run → run = ⟨run.available, [], 0, .reading⟩)
    (hinserted : call.inserted = none) (hremoved : call.removed = none) (hsees : call.sees = none) :
    MigrationInv { s with calls := s.calls ++ [call] } := by
  refine ⟨h.ctid_lt, h.versions, h.ctids, ?_, ?_, ?_⟩
  · intro c hc
    rw [List.length_append]
    exact Nat.lt_succ_of_lt (h.call_lt c hc)
  · intro j call' hj
    rcases getElem?_concat_cases hj with hold | ⟨rfl, rfl⟩
    · exact (h.calls j call' hold).congr rfl le_rfl rfl
    · refine CallInv.of_idle ?_ hinserted hremoved hsees
      intro run heq
      have hnew := hrun run heq
      -- No transaction of the new call has been committed.
      have hnone : s.commitsOf s.calls.length = [] := by
        unfold MigrationState.commitsOf
        rw [List.filter_eq_nil_iff]
        intro c hc heq'
        exact (h.call_lt c hc).ne (of_decide_eq_true heq')
      rw [hnew]
      exact ⟨hnone, fun _ => rfl, Or.inr (Or.inr ⟨rfl, Or.inl rfl⟩)⟩
  · intro j k a b hjk hj hk
    rcases getElem?_concat_cases hj with ha | ⟨rfl, rfl⟩
    · rcases getElem?_concat_cases hk with hb | ⟨rfl, rfl⟩
      · exact h.apart j k a b hjk ha hb
      · exact (Apart.of_idle hinserted hremoved hsees a).symm
    · exact Apart.of_idle hinserted hremoved hsees b

/-! ## Runs -/

section Run

variable {available pending : List Migration} {done : ℕ} {phase : RunPhase}

/-- A run whose transaction is open has a migration. -/
theorem RunInv.done_lt (h : RunInv s i ⟨available, pending, done, phase⟩) (hreturned : phase ≠ .returned)
    (hreading : phase ≠ .reading) (hthrew : phase ≠ .threw) : done < pending.length := by
  rcases h.going with hret | hlt | ⟨-, hread | hthrow⟩
  · exact absurd hret hreturned
  · exact hlt
  · exact absurd hread hreading
  · exact absurd hthrow hthrew

/-- It stays at its place while the transaction is open. -/
theorem RunInv.move (h : RunInv s i ⟨available, pending, done, phase⟩) (hlt : done < pending.length)
    {phase' : RunPhase} (hreading : phase' ≠ .reading) : RunInv s i ⟨available, pending, done, phase'⟩ :=
  ⟨h.commits, fun hread => absurd hread hreading, Or.inr (Or.inl hlt)⟩

/-- It throws. -/
theorem RunInv.throws (h : RunInv s i ⟨available, pending, done, phase⟩)
    (hreturned : phase ≠ .returned) : RunInv s i ⟨available, pending, done, .threw⟩ := by
  refine ⟨h.commits, fun hread => absurd hread (by simp), ?_⟩
  rcases h.going with hret | hlt | ⟨hnil, -⟩
  · exact absurd hret hreturned
  · exact Or.inr (Or.inl hlt)
  · exact Or.inr (Or.inr ⟨hnil, Or.inr rfl⟩)

/-- A run that has committed its migrations up to a place goes on there. -/
theorem RunInv.next (hcommits : s.commitsOf i = (pending.take done).map fun m => ⟨i, m.version, .up⟩) :
    RunInv s i ⟨available, pending, done, MigrationState.nextPhase pending done⟩ := by
  refine ⟨hcommits, ?_, ?_⟩
  · show MigrationState.nextPhase pending done = .reading → _
    unfold MigrationState.nextPhase
    split_ifs <;> intro hread <;> cases hread
  · show MigrationState.nextPhase pending done = .returned ∨ _
    unfold MigrationState.nextPhase
    split_ifs with hlt
    · exact Or.inr (Or.inl hlt)
    · exact Or.inl rfl

/-- The phase after a transaction does nothing to the table. -/
theorem nextPhase_idle : (Call.run ⟨available, pending, done, MigrationState.nextPhase pending done⟩).inserted =
    none := by
  unfold MigrationState.nextPhase
  split_ifs <;> rfl

end Run

/-! ## Statements -/

/-- A version without a row is not recorded. -/
theorem record_eq_none {version : String} : s.record version = none ↔ ¬ s.IsRecorded version := by
  unfold MigrationState.record MigrationState.IsRecorded
  rw [List.find?_eq_none]
  constructor
  · intro h hrecorded
    obtain ⟨row, hrow, heq⟩ := List.mem_map.1 hrecorded
    exact h row hrow (decide_eq_true heq)
  · intro h row hrow heq
    exact h (List.mem_map.2 ⟨row, hrow, of_decide_eq_true heq⟩)

/-- A row of a version. -/
theorem of_record_eq_some {version : String} {row : MigrationRecord} (h : s.record version = some row) :
    row ∈ s.records ∧ row.version = version := by
  have hfound := List.find?_some h
  exact ⟨List.mem_of_find?_eq_some h, of_decide_eq_true hfound⟩

/-- The transactions of a call, after one more has been committed. -/
theorem commitsOf_concat {c : Commit} (hcommits : t.commits = s.commits ++ [c]) (j : ℕ) :
    t.commitsOf j = s.commitsOf j ++ if c.call = j then [c] else [] := by
  unfold MigrationState.commitsOf
  rw [hcommits, List.filter_append]
  split_ifs with hcall
  · simp [hcall]
  · simp [hcall]

/-- The `INSERT` of a run. -/
theorem MigrationInv.insertRecord (h : MigrationInv s) {available pending : List Migration} {done : ℕ}
    {migration : Migration} (hi : s.calls[i]? = some (.run ⟨available, pending, done, .inserting⟩))
    (hmigration : pending[done]? = some migration) (hfree : s.insertWaits migration.version = false) :
    MigrationInv (s.insertRecord i ⟨available, pending, done, .inserting⟩ migration) := by
  have hrun := (h.calls i _ hi).run _ rfl
  have hlt : done < pending.length := (List.getElem?_eq_some_iff.1 hmigration).1
  unfold MigrationState.insertRecord
  split
  · refine h.setIdle hi ?_ rfl rfl rfl
    intro run heq
    obtain rfl := Call.run.inj heq
    exact hrun.throws (by simp)
  · rename_i hnone
    -- The counter of the rows is increased, and then the call changed.
    set row : MigrationRecord :=
      ⟨migration.version, migration.name, migration.type, s.nextCtid⟩ with hrow
    have hcounted : MigrationInv { s with nextCtid := s.nextCtid + 1 } :=
      ⟨fun row hrow => Nat.lt_succ_of_lt (h.ctid_lt row hrow), h.versions, h.ctids, h.call_lt,
        fun j call hj => (h.calls j call hj).congr rfl (Nat.le_succ _) rfl, h.apart⟩
    suffices hset : MigrationInv (MigrationState.setCall { s with nextCtid := s.nextCtid + 1 } i
        (.run ⟨available, pending, done, .committing row⟩)) from hset
    refine hcounted.setCall hi ?_ ?_
    · refine ⟨?_, ?_, ?_, ?_, ?_, ?_⟩
      · intro run heq
        obtain rfl := Call.run.inj heq
        have hmoved : RunInv s i ⟨available, pending, done, .committing row⟩ := hrun.move hlt (by simp)
        exact ⟨hmoved.commits, hmoved.reading, hmoved.going⟩
      · intro available' pending' done' row' heq
        obtain ⟨-, rfl, rfl, hcommitting⟩ := RunCall.mk.inj (Call.run.inj heq)
        obtain rfl := RunPhase.committing.inj hcommitting
        exact ⟨migration, hmigration, rfl⟩
      · intro row' hrow'
        obtain rfl := Option.some.inj hrow'
        exact ⟨record_eq_none.1 hnone, Nat.lt_succ_self _, fun row' hrow' => (h.ctid_lt row' hrow').ne⟩
      · intro ctid hctid
        cases hctid
      · intro migration' phase heq
        cases heq
      · intro ctid hctid
        cases hctid
    · intro j b hj hb
      have hother := h.calls j b hb
      have hwaits := List.any_eq_false.1 hfree b (List.mem_of_getElem? hb)
      refine ⟨?_, ?_, ?_, ?_⟩
      · intro row' hrow' row'' hrow''
        obtain rfl := Option.some.inj hrow'
        refine ⟨?_, ((hother.inserted row'' hrow'').ctid_lt).ne'⟩
        intro heq
        refine hwaits ?_
        rw [Option.mem_def.1 hrow'']
        simp [heq.symm, hrow]
      · intro ctid hctid
        cases hctid
      · intro ctid hctid
        cases hctid
      · intro ctid hctid row' hrow'
        obtain rfl := Option.some.inj hrow'
        exact (hother.sees_lt ctid hctid).ne'

/-- The snapshot of a `DELETE`. -/
theorem MigrationInv.startDelete (h : MigrationInv s) {migration : Migration}
    (hi : s.calls[i]? = some (.rollback migration .recording)) :
    MigrationInv (s.setCall i (.rollback migration
      (.deleting ((s.record migration.version).map MigrationRecord.ctid)))) := by
  have hseen : ∀ ctid ∈ (s.record migration.version).map MigrationRecord.ctid,
      ∃ row ∈ s.records, row.ctid = ctid ∧ row.version = migration.version := by
    intro ctid hctid
    obtain ⟨row, hrow, rfl⟩ := Option.map_eq_some_iff.1 hctid
    obtain ⟨hmem, hversion⟩ := of_record_eq_some hrow
    exact ⟨row, hmem, rfl, hversion⟩
  refine h.setCall hi ⟨?_, ?_, ?_, ?_, ?_, ?_⟩ ?_
  · intro run heq
    cases heq
  · intro available pending done row heq
    cases heq
  · intro row hrow
    cases hrow
  · intro ctid hctid
    obtain ⟨row, hrow, rfl, -⟩ := hseen ctid hctid
    exact h.ctid_lt row hrow
  · intro migration' phase heq ctid hctid row' hrow' heq'
    obtain ⟨rfl, -⟩ := Call.rollback.inj heq
    obtain ⟨row, hrow, rfl, hversion⟩ := hseen ctid hctid
    rw [h.ctids row' hrow' row hrow heq']
    exact hversion
  · intro ctid hctid
    cases hctid
  · intro j b _ hb
    refine ⟨?_, ?_, ?_, ?_⟩
    · intro row hrow
      cases hrow
    · intro ctid hctid
      cases hctid
    · intro ctid hctid row' hrow'
      obtain ⟨row, hrow, rfl, -⟩ := hseen ctid hctid
      exact (((h.calls j b hb).inserted row' hrow').ctid_ne row hrow).symm
    · intro ctid _ row hrow
      cases hrow

/-- The `DELETE` of a rollback. -/
theorem MigrationInv.deleteRecord (h : MigrationInv s) {migration : Migration} {seen : Option ℕ}
    (hi : s.calls[i]? = some (.rollback migration (.deleting seen)))
    (hfree : seen.any s.deleteWaits = false) : MigrationInv (s.deleteRecord i migration seen) := by
  have hcall := h.calls i _ hi
  have hseen : ∀ ctid ∈ seen.filter fun ctid => s.records.any fun row => row.ctid = ctid,
      seen = some ctid ∧ ∃ row ∈ s.records, row.ctid = ctid := by
    intro ctid hctid
    obtain ⟨hsome, hany⟩ := Option.filter_eq_some_iff.1 hctid
    obtain ⟨row, hrow, heq⟩ := List.any_eq_true.1 hany
    exact ⟨hsome, row, hrow, of_decide_eq_true heq⟩
  refine h.setCall hi ⟨?_, ?_, ?_, ?_, ?_, ?_⟩ ?_
  · intro run heq
    cases heq
  · intro available pending done row heq
    cases heq
  · intro row hrow
    cases hrow
  · intro ctid hctid
    exact hcall.sees_lt ctid (hseen ctid hctid).1
  · intro migration' phase heq ctid hctid
    obtain ⟨rfl, -⟩ := Call.rollback.inj heq
    exact hcall.sees _ _ rfl ctid (hseen ctid hctid).1
  · intro ctid hctid
    exact (hseen ctid hctid).2
  · intro j b hj hb
    have hapart := h.apart i j _ b (Ne.symm hj) hi hb
    refine ⟨?_, ?_, ?_, ?_⟩
    · intro row hrow
      cases hrow
    · intro ctid hctid hremoved
      -- The row would be locked.
      have hsome := (hseen ctid hctid).1
      rw [hsome, Option.any_some] at hfree
      exact List.any_eq_false.1 hfree b (List.mem_of_getElem? hb) (decide_eq_true hremoved)
    · intro ctid hctid
      exact hapart.sees ctid (hseen ctid hctid).1
    · intro ctid _ row hrow
      cases hrow

/-! ## Commits -/

/-- A commit of one call is none of the others. -/
theorem commitsOf_of_ne {c : Commit} (hcommits : t.commits = s.commits ++ [c]) {j : ℕ} (hne : c.call ≠ j) :
    t.commitsOf j = s.commitsOf j := by
  rw [commitsOf_concat hcommits, if_neg hne, List.append_nil]

/-- A commit of a call is one of the calls. -/
theorem MigrationInv.call_lt_concat (h : MigrationInv s) {old new : Call} (hi : s.calls[i]? = some old)
    {c : Commit} (hc : c.call = i) : ∀ d ∈ s.commits ++ [c], d.call < (s.calls.set i new).length := by
  intro d hd
  rw [List.length_set]
  rcases List.mem_append.1 hd with hold | hlast
  · exact h.call_lt d hold
  · rw [List.mem_singleton.1 hlast, hc]
    exact (List.getElem?_eq_some_iff.1 hi).1

/-- The `COMMIT` of a run. -/
theorem MigrationInv.commitRun (h : MigrationInv s) {available pending : List Migration} {done : ℕ}
    {row : MigrationRecord}
    (hi : s.calls[i]? = some (.run ⟨available, pending, done, .committing row⟩)) :
    MigrationInv (s.commitRun i ⟨available, pending, done, .committing row⟩ row) := by
  have hcall := h.calls i _ hi
  have hrun := hcall.run _ rfl
  obtain ⟨m, hm, hversion⟩ := hcall.row _ _ _ _ rfl
  -- The row is new when it is committed, by its version and its place.
  obtain ⟨hnew, hlt, hne⟩ := hcall.inserted row rfl
  set t := s.commitRun i ⟨available, pending, done, .committing row⟩ row with ht
  have hrecords : t.records = s.records ++ [row] := rfl
  have hcommits : t.commits = s.commits ++ [⟨i, row.version, .up⟩] := rfl
  refine ⟨?_, ?_, ?_, ?_, ?_, ?_⟩
  · intro row' hrow'
    rcases List.mem_append.1 hrow' with hold | hlast
    · exact h.ctid_lt row' hold
    · rw [List.mem_singleton.1 hlast]
      exact hlt
  · rw [hrecords, List.map_append]
    refine h.versions.append (List.nodup_singleton _) ?_
    intro version hold hlast
    rw [List.mem_singleton.1 hlast] at hold
    exact hnew hold
  · intro a ha b hb heq
    rcases List.mem_append.1 ha with haold | halast
    · rcases List.mem_append.1 hb with hbold | hblast
      · exact h.ctids a haold b hbold heq
      · rw [List.mem_singleton.1 hblast] at heq
        exact absurd heq (hne a haold)
    · rcases List.mem_append.1 hb with hbold | hblast
      · rw [List.mem_singleton.1 halast] at heq
        exact absurd heq.symm (hne b hbold)
      · rw [List.mem_singleton.1 halast, List.mem_singleton.1 hblast]
  · exact h.call_lt_concat hi rfl
  · intro j call hj
    rcases getElem?_set_cases hj with ⟨rfl, rfl⟩ | ⟨hji, hold⟩
    · refine CallInv.of_idle ?_ nextPhase_idle rfl rfl
      intro run heq
      obtain rfl := Call.run.inj heq
      refine RunInv.next ?_
      rw [commitsOf_concat hcommits, if_pos rfl, hrun.commits]
      show (pending.take done).map _ ++ _ = (pending.take (done + 1)).map _
      rw [List.take_add_one, hm, List.map_append, hversion]
      rfl
    -- What another call has seen does not come to contain the row of this one.
    · have hapart := h.apart i j _ call (Ne.symm hji) hi hold
      refine (h.calls j call hold).mono le_rfl (commitsOf_of_ne hcommits (Ne.symm hji)) ?_ ?_ ?_
      · intro row' hrow' a ha
        rcases List.mem_append.1 ha with haold | halast
        · exact Or.inl haold
        · rw [List.mem_singleton.1 halast]
          exact Or.inr (hapart.inserted row rfl row' hrow')
      · intro ctid hctid a ha
        rcases List.mem_append.1 ha with haold | halast
        · exact Or.inl haold
        · rw [List.mem_singleton.1 halast]
          exact Or.inr (hapart.seen ctid hctid row rfl)
      · intro ctid _ a ha _
        exact List.mem_append_left _ ha
  · exact h.apart_set fun j b _ _ => Apart.of_idle nextPhase_idle rfl rfl b

/-- The `COMMIT` of a rollback. -/
theorem MigrationInv.commitRollback (h : MigrationInv s) {migration : Migration} {removed : Option ℕ}
    (hi : s.calls[i]? = some (.rollback migration (.committing removed))) :
    MigrationInv (s.commitRollback i migration removed) := by
  set t := s.commitRollback i migration removed with ht
  have hsub : ∀ row ∈ t.records, row ∈ s.records := fun row hrow => List.mem_of_mem_filter hrow
  have hcommits : t.commits = s.commits ++ [⟨i, migration.version, .down⟩] := rfl
  refine ⟨?_, ?_, ?_, ?_, ?_, ?_⟩
  · intro row hrow
    exact h.ctid_lt row (hsub row hrow)
  · exact h.versions.sublist (List.filter_sublist.map _)
  · intro a ha b hb
    exact h.ctids a (hsub a ha) b (hsub b hb)
  · exact h.call_lt_concat hi rfl
  · intro j call hj
    rcases getElem?_set_cases hj with ⟨rfl, rfl⟩ | ⟨hji, hold⟩
    · refine CallInv.of_idle ?_ rfl rfl rfl
      intro run heq
      cases heq
    · have hapart := h.apart i j _ call (Ne.symm hji) hi hold
      refine (h.calls j call hold).mono le_rfl (commitsOf_of_ne hcommits (Ne.symm hji)) ?_ ?_ ?_
      · intro row' _ a ha
        exact Or.inl (hsub a ha)
      · intro ctid _ a ha
        exact Or.inl (hsub a ha)
      · intro ctid hctid a ha heq
        refine List.mem_filter.2 ⟨ha, decide_eq_true ?_⟩
        intro hremoved
        exact hapart.removed ctid (heq ▸ hremoved) hctid
  · exact h.apart_set fun j b _ _ => Apart.of_idle rfl rfl rfl b

/-! ## Steps -/

/-- A run moves on in its transaction. -/
theorem MigrationInv.moveRun (h : MigrationInv s) {available pending : List Migration} {done : ℕ}
    {phase phase' : RunPhase} (hi : s.calls[i]? = some (.run ⟨available, pending, done, phase⟩))
    (hopen : phase ≠ .returned ∧ phase ≠ .reading ∧ phase ≠ .threw) (hreading : phase' ≠ .reading)
    (hinserted : (Call.run ⟨available, pending, done, phase'⟩).inserted = none) :
    MigrationInv (s.setCall i (.run ⟨available, pending, done, phase'⟩)) := by
  have hrun := (h.calls i _ hi).run _ rfl
  have hlt : done < pending.length := hrun.done_lt hopen.1 hopen.2.1 hopen.2.2
  refine h.setIdle hi ?_ hinserted rfl rfl
  intro run heq
  obtain rfl := Call.run.inj heq
  exact hrun.move hlt hreading

/-- A call that throws. -/
theorem MigrationInv.fails (h : MigrationInv s) {call : Call} (hi : s.calls[i]? = some call)
    (hended : call.ended = false) : MigrationInv (s.setCall i call.failed) := by
  cases call with
  | run run =>
    obtain ⟨available, pending, done, phase⟩ := run
    refine h.setIdle hi ?_ rfl rfl rfl
    intro run heq
    obtain rfl := Call.run.inj heq
    have hreturned : phase ≠ .returned := by
      rintro rfl
      cases hended
    exact ((h.calls i _ hi).run _ rfl).throws hreturned
  | rollback migration phase =>
    refine h.setIdle hi ?_ rfl rfl rfl
    intro run heq
    cases heq
  | rejected message => cases hended

/-- Every step keeps the invariant. -/
theorem MigrationInv.step (h : MigrationInv s) (a : MigrationAction)
    (hst : migrationStep localeCompare s a = some t) : MigrationInv t := by
  have hnorun : ∀ {i : ℕ} {migration : Migration} {phase : RollbackPhase} (run : RunCall),
      Call.rollback migration phase = .run run → RunInv s i run := by
    intro i migration phase run heq
    cases heq
  cases a with
  | callRun available =>
    obtain rfl := Option.some.inj hst
    refine h.newCall ?_ rfl rfl rfl
    intro run heq
    obtain rfl := Call.run.inj heq
    rfl
  | callRollback version available =>
    simp only [migrationStep] at hst
    split at hst
    · obtain rfl := Option.some.inj hst
      refine h.newCall ?_ rfl rfl rfl
      intro run heq
      cases heq
    · obtain rfl := Option.some.inj hst
      refine h.newCall ?_ rfl rfl rfl
      intro run heq
      cases heq
  | read i =>
    simp only [migrationStep] at hst
    split at hst
    · rename_i available pending done hi
      obtain rfl := Option.some.inj hst
      refine h.setIdle hi ?_ nextPhase_idle rfl rfl
      intro run heq
      obtain rfl := Call.run.inj heq
      have hrun := (h.calls i _ hi).run _ rfl
      -- Nothing was pending, so that nothing has been committed.
      have hcommits := hrun.commits
      rw [hrun.reading rfl, List.take_nil] at hcommits
      exact RunInv.next hcommits
    · cases hst
  | begin i | execute i =>
    simp only [migrationStep] at hst
    split at hst
    · rename_i available pending done hi
      obtain rfl := Option.some.inj hst
      exact h.moveRun hi ⟨by simp, by simp, by simp⟩ (by simp) rfl
    · rename_i migration hi
      obtain rfl := Option.some.inj hst
      exact h.setIdle hi hnorun rfl rfl rfl
    · cases hst
  | insert i =>
    simp only [migrationStep] at hst
    split at hst
    · rename_i available pending done hi
      obtain ⟨migration, hmigration, hst⟩ := Option.bind_eq_some_iff.1 hst
      split_ifs at hst with hwaits
      obtain rfl := Option.some.inj hst
      exact h.insertRecord hi hmigration (by simpa using hwaits)
    · cases hst
  | startDelete i =>
    simp only [migrationStep] at hst
    split at hst
    · rename_i migration hi
      obtain rfl := Option.some.inj hst
      exact h.startDelete hi
    · cases hst
  | delete i =>
    simp only [migrationStep] at hst
    split at hst
    · rename_i migration seen hi
      split_ifs at hst with hwaits
      obtain rfl := Option.some.inj hst
      exact h.deleteRecord hi (by simpa using hwaits)
    · cases hst
  | commit i =>
    simp only [migrationStep] at hst
    split at hst
    · rename_i available pending done row hi
      obtain rfl := Option.some.inj hst
      exact h.commitRun hi
    · rename_i migration removed hi
      obtain rfl := Option.some.inj hst
      exact h.commitRollback hi
    · cases hst
  | fail i =>
    simp only [migrationStep] at hst
    split at hst
    · rename_i call hi
      split_ifs at hst with hended
      obtain rfl := Option.some.inj hst
      exact h.fails hi (by simpa using hended)
    · cases hst

/-- A run that has thrown is where its invariant says. -/
theorem MigrationInv.stoppedAtFailure (h : MigrationInv s) : s.StoppedAtFailure := by
  intro i call hi hthrew
  have hrun := (h.calls i _ hi).run _ rfl
  have hcommits := hrun.commits
  rcases hrun.going with hreturned | hlt | ⟨hnil, -⟩
  · rw [hthrew] at hreturned
    cases hreturned
  · refine Or.inr ⟨call.pending.take call.done, call.pending[call.done], call.pending.drop (call.done + 1),
      ?_, hcommits⟩
    calc call.pending = call.pending.take call.done ++ call.pending.drop call.done :=
        (List.take_append_drop _ _).symm
      _ = _ := by rw [List.drop_eq_getElem_cons hlt]
  · rw [hnil, List.take_nil] at hcommits
    exact Or.inl ⟨hnil, hcommits⟩

/-! ## What a step applies -/

/-- A step without a commit applies nothing. -/
theorem appliedOnce_congr (hcommits : t.commits = s.commits) (hrecords : t.records = s.records) :
    t.AppliedOnce ↔ s.AppliedOnce := by
  unfold MigrationState.AppliedOnce MigrationState.timesApplied MigrationState.IsRecorded
  rw [hcommits, hrecords]

/-- What a commit adds to the count of its version. -/
def Direction.sign : Direction → ℤ
  | .up => 1
  | .down => -1

/-- A commit is counted for its version. -/
theorem timesApplied_concat {i : ℕ} {version : String} {direction : Direction}
    (hcommits : t.commits = s.commits ++ [⟨i, version, direction⟩]) (version' : String) :
    t.timesApplied version' = s.timesApplied version' +
      if version = version' then direction.sign else 0 := by
  unfold MigrationState.timesApplied
  rw [hcommits, List.countP_append, List.countP_append]
  split_ifs with heq
  · cases direction with
    | up | down =>
      simp only [List.countP_singleton, heq, Direction.sign, and_self, and_false, decide_true, decide_false,
        reduceCtorEq, Bool.false_eq_true, if_true, if_false]
      omega
  · simp [heq]

/-- A run applies a version that is new. -/
theorem appliedOnce_commitRun (h : MigrationInv s) (happlied : s.AppliedOnce)
    {available pending : List Migration} {done : ℕ} {row : MigrationRecord}
    (hi : s.calls[i]? = some (.run ⟨available, pending, done, .committing row⟩)) :
    (s.commitRun i ⟨available, pending, done, .committing row⟩ row).AppliedOnce := by
  have hnew := ((h.calls i _ hi).inserted row rfl).version
  intro version
  have htimes := timesApplied_concat (s := s)
    (t := s.commitRun i ⟨available, pending, done, .committing row⟩ row) rfl version
  have hrecorded : (s.commitRun i ⟨available, pending, done, .committing row⟩ row).IsRecorded version ↔
      s.IsRecorded version ∨ version = row.version := by
    unfold MigrationState.IsRecorded
    show version ∈ (s.records ++ [row]).map _ ↔ _
    rw [List.map_append, List.mem_append]
    simp
  obtain ⟨hcases, hiff⟩ := happlied version
  rw [htimes, hrecorded]
  split_ifs with heq
  · -- The version has not been applied before.
    have hnot : s.timesApplied version ≠ 1 := fun hone => hnew (heq ▸ hiff.1 hone)
    have hzero : s.timesApplied version = 0 := hcases.resolve_right hnot
    simp [hzero, heq, Direction.sign]
  · simp only [Int.add_zero]
    exact ⟨hcases, hiff.trans ⟨Or.inl, fun h => h.resolve_right (Ne.symm heq)⟩⟩

/-- A rollback takes a version back exactly when it has deleted a row. -/
theorem appliedOnce_commitRollback (h : MigrationInv s) (happlied : s.AppliedOnce)
    {migration : Migration} {removed : Option ℕ}
    (hi : s.calls[i]? = some (.rollback migration (.committing removed))) :
    (s.commitRollback i migration removed).AppliedOnce ↔ removed ≠ none := by
  have hcall := h.calls i _ hi
  have htimes := timesApplied_concat (s := s) (t := s.commitRollback i migration removed) rfl
  cases removed with
  | none =>
    refine iff_of_false ?_ (by simp)
    intro hbroken
    obtain ⟨hcases, hiff⟩ := happlied migration.version
    obtain ⟨hcases', hiff'⟩ := hbroken migration.version
    have hrecorded : (s.commitRollback i migration none).IsRecorded migration.version ↔
        s.IsRecorded migration.version := by
      unfold MigrationState.IsRecorded MigrationState.commitRollback
      simp
    rw [hrecorded, ← hiff] at hiff'
    rw [htimes, if_pos rfl] at hcases' hiff'
    simp only [Direction.sign] at hcases' hiff'
    omega
  | some ctid =>
    refine iff_of_true ?_ (by simp)
    obtain ⟨row, hrow, hctid⟩ := hcall.removed ctid rfl
    have hversion := hcall.sees _ _ rfl ctid rfl
    intro version
    have hrecorded : (s.commitRollback i migration (some ctid)).IsRecorded version ↔
        s.IsRecorded version ∧ version ≠ migration.version := by
      constructor
      · intro hrec
        obtain ⟨row', hrow', rfl⟩ := List.mem_map.1 hrec
        obtain ⟨hmem, hkept⟩ := List.mem_filter.1 hrow'
        refine ⟨List.mem_map_of_mem hmem, fun heq => of_decide_eq_true hkept ?_⟩
        -- A row of the version is the one that has been deleted.
        have hsame := List.inj_on_of_nodup_map h.versions hmem hrow (heq.trans (hversion row hrow hctid).symm)
        rw [hsame, hctid]
      · rintro ⟨hrec, hne⟩
        obtain ⟨row', hrow', rfl⟩ := List.mem_map.1 hrec
        refine List.mem_map_of_mem (List.mem_filter.2 ⟨hrow', decide_eq_true fun hremoved => ?_⟩)
        exact hne (hversion row' hrow' (Option.some.inj hremoved).symm)
    obtain ⟨hcases, hiff⟩ := happlied version
    rw [htimes, hrecorded, ← hiff]
    split_ifs with heq
    · have hrec : s.IsRecorded version := by
        rw [← heq, ← hversion row hrow hctid]
        exact List.mem_map_of_mem hrow
      have hone := hiff.2 hrec
      simp [hone, heq, Direction.sign]
    · simp only [Int.add_zero]
      exact ⟨hcases, ⟨fun hone => ⟨hone, Ne.symm heq⟩, And.left⟩⟩

/-- Only a commit changes the table or the count. -/
theorem commits_of_step {a : MigrationAction} (hst : migrationStep localeCompare s a = some t)
    (ha : ∀ i, a ≠ .commit i) : t.commits = s.commits ∧ t.records = s.records := by
  cases a with
  | callRun available =>
    obtain rfl := Option.some.inj hst
    exact ⟨rfl, rfl⟩
  | insert i =>
    simp only [migrationStep] at hst
    split at hst
    · obtain ⟨migration, -, hst⟩ := Option.bind_eq_some_iff.1 hst
      split_ifs at hst
      obtain rfl := Option.some.inj hst
      unfold MigrationState.insertRecord
      split <;> exact ⟨rfl, rfl⟩
    · cases hst
  | delete i | fail i =>
    simp only [migrationStep] at hst
    split at hst
    · split_ifs at hst
      obtain rfl := Option.some.inj hst
      exact ⟨rfl, rfl⟩
    · cases hst
  | commit i => exact absurd rfl (ha i)
  | _ =>
    simp only [migrationStep] at hst
    split at hst
    all_goals
      cases hst
      try exact ⟨rfl, rfl⟩

/-- From a state in which every version is applied once or not at all, a step keeps that exactly when it
does not commit a rollback that has deleted nothing. -/
theorem appliedOnce_step_iff (h : MigrationInv s) (happlied : s.AppliedOnce) (a : MigrationAction)
    (hst : migrationStep localeCompare s a = some t) : t.AppliedOnce ↔ DeletesRecord s a := by
  cases a with
  | commit i =>
    simp only [migrationStep] at hst
    split at hst
    · rename_i available pending done row hi
      obtain rfl := Option.some.inj hst
      refine iff_of_true (appliedOnce_commitRun h happlied hi) ?_
      intro migration hnone
      rw [hi] at hnone
      cases hnone
    · rename_i migration removed hi
      obtain rfl := Option.some.inj hst
      rw [appliedOnce_commitRollback h happlied hi]
      constructor
      · intro hremoved migration' hnone
        rw [hi] at hnone
        obtain ⟨-, heq⟩ := Call.rollback.inj (Option.some.inj hnone)
        exact hremoved (RollbackPhase.committing.inj heq)
      · intro hdeletes hnone
        exact hdeletes migration (hnone ▸ hi)
    · cases hst
  | _ =>
    obtain ⟨hcommits, hrecords⟩ := commits_of_step hst (by simp)
    exact iff_of_true ((appliedOnce_congr hcommits hrecords).2 happlied) trivial

/-- In a run of calls every version is applied once exactly when it is recorded, and a `run` that throws
has applied the pending migrations before the one that failed, exactly when every `rollback` that commits
has deleted the record of its version. -/
theorem applied_once_iff (localeCompare : String → String → Ordering) (actions : List MigrationAction) :
    Along (migrationStep localeCompare) (fun s => s.AppliedOnce ∧ s.StoppedAtFailure) .init actions ↔
      Guarded (migrationStep localeCompare) DeletesRecord .init actions := by
  refine along_iff_guarded (I := MigrationInv) (fun s a t h hst => h.step a hst) ?_ actions .init ?_
  · intro s a t h hP hst
    rw [← appliedOnce_step_iff h hP.1 a hst]
    exact and_iff_left (h.step a hst).stoppedAtFailure
  · refine ⟨?_, MigrationInv.init.stoppedAtFailure⟩
    intro version
    have hnever : MigrationState.init.timesApplied version = 0 := rfl
    exact ⟨Or.inl hnever, iff_of_false (by omega) List.not_mem_nil⟩

/-- A `rollback` of a migration that has not been applied: `down()` is committed. -/
theorem rollback_of_unapplied :
    let addIndex : Migration := ⟨"002", "add index", .schema, true⟩
    ¬ Along (migrationStep compare) (fun s => s.AppliedOnce ∧ s.StoppedAtFailure) .init
      [.callRollback "002" [addIndex], .begin 0, .execute 0, .startDelete 0, .delete 0, .commit 0] := by
  intro addIndex h
  have hrun : run (migrationStep compare) .init
      [.callRollback "002" [addIndex], .begin 0, .execute 0, .startDelete 0, .delete 0, .commit 0] =
      some ⟨[], 0, [.rollback addIndex .returned], [⟨0, "002", .down⟩]⟩ := by decide +kernel
  have happlied := (h.last hrun).1 "002"
  revert happlied
  decide +kernel

end AlsaqiBackend.Migrations
