import AlsaqiBackend.Audit.Verify
import AlsaqiBackend.Lib.Run
import AlsaqiBackend.Lib.Separator

/-!
# Appends to the audit chain

`AuditChainService.append` reads the last hash, computes the new one and inserts the row in one
transaction, under a lock that it holds until the transaction ends: `pg_advisory_xact_lock` on an
external database, the write lock of the process on the embedded one. The system of this module has
any number of calls that wait for the lock, one at most that holds it, and the table as the committed
transactions left it.

The main theorem is `verifyChain_of_appends`: whatever order the steps of the calls come in, and
whichever of the calls fail, the verification accepts the table. The table of every reachable state
is `Appended`: the rows come in the order of `seq` and are a linear chain. That its hashes are
different, although equal entries can be appended in one millisecond, comes from the previous hash
in each hashed text: the hashes of the entries before it are different by induction.
-/

namespace AlsaqiBackend.Audit

open AlsaqiBackend.Lib AuditTrailRow

/-! ## The system -/

/-- Where the call that holds the lock stands. -/
inductive CriticalSection
  | locked (entry : AuditEntryInput)
  | read (entry : AuditEntryInput) (now : ℤ) (timestamp previousHash : String)
  | inserted (row : StoredRow)
  deriving DecidableEq, Repr

/-- The committed table with the next value of its `seq`, the calls that wait for the lock, and the
call that holds it. -/
structure AppendState where
  table : List StoredRow
  nextSeq : ℤ
  waiting : List (ℕ × AuditEntryInput)
  critical : Option (ℕ × CriticalSection)
  deriving DecidableEq, Repr

/-- An empty table and no call. -/
def AppendState.init : AppendState := ⟨[], 1, [], none⟩

/-- What can happen to the calls. -/
inductive AppendAction
  /-- `append` is called. -/
  | call (id : ℕ) (entry : AuditEntryInput)
  /-- The lock is granted to a call that waits for it. -/
  | lock (id : ℕ)
  /-- The holder takes the time and reads the last hash. -/
  | readTail (now : ℤ)
  /-- The holder inserts its row, which gets the given id. -/
  | insert (rowId : String)
  /-- The transaction of the holder is committed, which releases the lock. -/
  | commit
  /-- A call fails, wherever it stands: its transaction is rolled back. -/
  | fail (id : ℕ)
  deriving DecidableEq, Repr

/-- The row that `append` inserts. The text of the timestamp is stored as the instant it denotes. -/
def insertedRow (entry : AuditEntryInput) (now : ℤ) (timestamp previousHash rowId : String)
    (seq : ℤ) : StoredRow where
  id := rowId
  user := entry.user
  action := entry.action
  module := entry.module
  details := some entry.details
  previousHash := some previousHash
  timestamp := .finite (now * 1000)
  hash := some <|
    computeEntryHash previousHash entry.user entry.action entry.module entry.details timestamp
  seq := seq

/-- One step of the calls. -/
def appendStep (s : AppendState) : AppendAction → Option AppendState
  | .call id entry => some { s with waiting := s.waiting ++ [(id, entry)] }
  | .lock id =>
    -- Mutual exclusion: the lock is granted when nobody is in the critical section.
    match s.critical, s.waiting.find? (fun c => c.1 = id) with
    | none, some (_, entry) =>
      some { s with
              waiting := s.waiting.erase (id, entry)
              critical := some (id, .locked entry) }
    | _, _ => none
  | .readTail now =>
    match s.critical, canonicalizeTimestamp (timeClip now) with
    | some (id, .locked entry), .ok timestamp =>
      let previousHash := (selectLastHash s.table).getD GENESIS_PREVIOUS_HASH
      some { s with critical := some (id, .read entry now timestamp previousHash) }
    | _, _ => none
  | .insert rowId =>
    match s.critical with
    | some (id, .read entry now timestamp previousHash) =>
      -- The sequence is not transactional: a value that was taken is not given back.
      some { s with
              nextSeq := s.nextSeq + 1
              critical := some (id,
                .inserted (insertedRow entry now timestamp previousHash rowId s.nextSeq)) }
    | _ => none
  | .commit =>
    match s.critical with
    -- The lock belongs to the transaction and goes with it.
    | some (_, .inserted row) => some { s with table := s.table ++ [row], critical := none }
    | _ => none
  | .fail id =>
    match s.critical with
    | some (holder, _) =>
      -- The rollback takes an inserted row back.
      if holder = id then some { s with critical := none }
      else some { s with waiting := s.waiting.filter fun c => c.1 ≠ id }
    | none => some { s with waiting := s.waiting.filter fun c => c.1 ≠ id }

/-! ## What the hashed text determines -/

/-- The digest of a row is that of its text. -/
theorem AuditContent.recompute_eq (row : AuditContent) :
    row.recompute = row.recordData.map sha256Hex := by
  unfold AuditContent.recompute AuditContent.recordData computeEntryHash
  cases canonicalizeTimestamp row.timestamp.toDate <;> rfl

/-- The characters of a hashed text, cut behind the previous hash. -/
theorem recordData_toList (previousHash user action module details timestamp : String) :
    (recordData previousHash user action module details timestamp).toList =
      previousHash.toList ++ '|' :: (user ++ "|" ++ action ++ "|" ++ module ++ "|" ++ details ++ "|"
        ++ timestamp).toList := by
  simp [recordData]

/-- The text of a row exists exactly when its timestamp reads as a date. -/
theorem AuditContent.recordData_eq_ok_iff (row : AuditContent) (text : String) :
    row.recordData = .ok text ↔ ∃ time, row.timestamp.toDate = some time ∧
      text = Audit.recordData (templateText row.previousHash) row.user row.action row.module
        (templateText row.details) (toISOString time) := by
  unfold AuditContent.recordData canonicalizeTimestamp
  cases row.timestamp.toDate with
  | none => simp [bind, Except.bind]
  | some time => simp [bind, Except.bind, pure, Except.pure, eq_comm]

/-- A hash that matches is the digest of the text of the row. -/
theorem AuditTrailRow.HashMatches.exists_text {row : AuditTrailRow} (h : row.HashMatches) :
    ∃ text, row.recordData = .ok text ∧ row.hash = sha256Hex text := by
  unfold HashMatches at h
  rw [AuditContent.recompute_eq] at h
  cases htext : row.recordData with
  | error e => simp [htext, Except.map] at h
  | ok text =>
    rw [htext, Except.map, Except.ok.injEq] at h
    exact ⟨text, rfl, h.symm⟩

/-! ## Linear chains -/

/-- In a linear chain no hash is that of the genesis. -/
theorem LinearChain.genesis_notMem {rows : List AuditTrailRow} (h : LinearChain rows) :
    genesisKey ∉ rows.map key := by
  intro hmem
  obtain ⟨row, hrow, hkey⟩ := List.mem_map.1 hmem
  obtain ⟨text, -, hhash⟩ := (h.1 row hrow).exists_text
  rw [key, Option.some.injEq, hhash] at hkey
  have hlen := sha256Hex_length text
  rw [hkey] at hlen
  exact absurd hlen (by decide)

/-- In a linear chain the previous hashes are texts without the separator. -/
theorem LinearChain.exists_previousHash {rows : List AuditTrailRow} (h : LinearChain rows)
    {row : AuditTrailRow} (hrow : row ∈ rows) :
    ∃ previousHash, row.prev = some previousHash ∧ '|' ∉ previousHash.toList := by
  have hmem : row.prev ∈ genesisKey :: rows.map key := by
    rw [← h.2.map_prev]
    exact List.mem_append_left _ (List.mem_map_of_mem hrow)
  rcases List.mem_cons.1 hmem with hgen | hkey
  · exact ⟨_, hgen, by decide⟩
  · obtain ⟨before, hbefore, hkey⟩ := List.mem_map.1 hkey
    obtain ⟨text, -, hhash⟩ := (h.1 before hbefore).exists_text
    refine ⟨before.hash, hkey.symm, ?_⟩
    rw [hhash]
    exact notMem_sha256Hex (digitChar_ne (by decide) (by decide)) text

/-- Without collisions the hashes of a linear chain are different, and different from that of the
genesis. -/
theorem LinearChain.nodup {rows : List AuditTrailRow} (h : LinearChain rows)
    (hcf : CollisionFree rows) : (genesisKey :: rows.map key).Nodup := by
  refine h.2.nodup_of_determined h.genesis_notMem fun a ha b hb hkey => ?_
  -- Equal hashes come from equal texts, and these begin with the previous hashes.
  have hrecompute : a.recompute = b.recompute := by
    have hhash : a.hash = b.hash := Option.some.inj hkey
    rw [h.1 a ha, h.1 b hb, hhash]
  have htext := hcf a ha b hb hrecompute
  obtain ⟨text, hta, -⟩ := (h.1 a ha).exists_text
  obtain ⟨_, -, ha'⟩ := (a.recordData_eq_ok_iff text).1 hta
  obtain ⟨_, -, hb'⟩ := (b.recordData_eq_ok_iff text).1 (htext ▸ hta)
  obtain ⟨p, hp, hpsep⟩ := h.exists_previousHash ha
  obtain ⟨q, hq, hqsep⟩ := h.exists_previousHash hb
  rw [prev] at hp hq
  rw [hp, templateText] at ha'
  rw [hq, templateText] at hb'
  have hchars := congrArg String.toList (ha'.symm.trans hb')
  rw [recordData_toList, recordData_toList, cut_at_first hpsep hqsep] at hchars
  rw [prev, prev, hp, hq, String.ext_iff.2 hchars.1]

/-- Without collisions the verification accepts a linear chain. -/
theorem LinearChain.verifyRows_eq {rows : List AuditTrailRow} (h : LinearChain rows)
    (hcf : CollisionFree rows) : verifyRows rows = .ok .valid :=
  (verifyRows_eq_valid_iff rows).2 ⟨h.1, h.2.intact (h.nodup hcf)⟩

/-! ## Tables that appends leave -/

/-- Rows in the order of `seq` are read in their order. -/
theorem selectChain_of_increasing {table : List StoredRow}
    (h : table.Pairwise fun a b => a.seq < b.seq) :
    selectChain table = table.filterMap StoredRow.read := by
  have hsorted : (table.filter fun row => row.hash.isSome).Pairwise fun a b => a.seq ≤ b.seq :=
    (h.filter _).imp le_of_lt
  rw [selectChain, hsorted.insertionSort_eq, List.filterMap_filter]
  congr 1
  funext row
  cases hhash : row.hash <;> simp [StoredRow.read, hhash]

/-- In a table in the order of `seq`, the last hash is that of the last row that has one. -/
theorem selectLastHash_of_increasing {table : List StoredRow}
    (h : table.Pairwise fun a b => a.seq < b.seq) :
    selectLastHash table =
      (table.filter fun row => row.hash.isSome).getLast?.bind StoredRow.hash := by
  have hinc := h.filter fun row => row.hash.isSome
  unfold selectLastHash
  generalize table.filter (fun row => row.hash.isSome) = rows at hinc ⊢
  -- Sorted the other way, the rows come reversed.
  have hrev : rows.insertionSort (fun a b => a.seq ≥ b.seq) = rows.reverse := by
    have hnd : (rows.map StoredRow.seq).Nodup := List.pairwise_map.2 (hinc.imp ne_of_lt)
    refine List.Perm.eq_of_pairwise ?_ (List.pairwise_insertionSort _ rows)
      (List.pairwise_reverse.2 (hinc.imp le_of_lt))
      ((List.perm_insertionSort _ _).trans (List.reverse_perm rows).symm)
    intro a b ha hb hab hba
    rw [List.mem_insertionSort] at ha
    rw [List.mem_reverse] at hb
    exact List.inj_on_of_nodup_map hnd ha hb (le_antisymm hba hab)
  rw [hrev, List.head?_reverse]

/-- A table as committed appends leave it: every row has a hash, the rows come in the order of
`seq`, below the next value of it, and they are a linear chain. -/
structure Appended (table : List StoredRow) (nextSeq : ℤ) : Prop where
  hashed : ∀ row ∈ table, row.hash.isSome
  increasing : table.Pairwise fun a b => a.seq < b.seq
  below : ∀ row ∈ table, row.seq < nextSeq
  linear : LinearChain (table.filterMap StoredRow.read)

/-- The empty table. -/
theorem Appended.nil (nextSeq : ℤ) : Appended [] nextSeq :=
  ⟨by simp, by simp, by simp, by simp [LinearChain, Linked]⟩

/-- A value of the sequence that is taken and not used does no harm. -/
theorem Appended.mono {table : List StoredRow} {n m : ℤ} (h : Appended table n) (hnm : n ≤ m) :
    Appended table m :=
  ⟨h.hashed, h.increasing, fun row hrow => (h.below row hrow).trans_le hnm, h.linear⟩

/-- What `append` reads is the tip of the chain. -/
theorem Appended.tip_eq {table : List StoredRow} {n : ℤ} (h : Appended table n) :
    tip key genesisKey (table.filterMap StoredRow.read) =
      some ((selectLastHash table).getD GENESIS_PREVIOUS_HASH) := by
  have hall : (table.filter fun row => row.hash.isSome) = table :=
    List.filter_eq_self.2 h.hashed
  rw [selectLastHash_of_increasing h.increasing, hall]
  rcases List.eq_nil_or_concat table with rfl | ⟨rows, row, rfl⟩
  · rfl
  · obtain ⟨hash, hhash⟩ := Option.isSome_iff_exists.1 (h.hashed row (by simp))
    simp [StoredRow.read, hhash, tip, key]

/-- A row that is inserted behind the tip of the chain extends it. -/
theorem Appended.insert {table : List StoredRow} {n : ℤ} (h : Appended table n)
    (entry : AuditEntryInput) {now : ℤ} {timestamp previousHash : String} (rowId : String)
    (htime : canonicalizeTimestamp (timeClip now) = .ok timestamp)
    (htip : tip key genesisKey (table.filterMap StoredRow.read) = some previousHash) :
    Appended (table ++ [insertedRow entry now timestamp previousHash rowId n]) (n + 1) := by
  refine ⟨?_, ?_, ?_, ?_, ?_⟩
  · intro row hrow
    rcases List.mem_append.1 hrow with hrow | hrow
    · exact h.hashed row hrow
    · rw [List.mem_singleton.1 hrow]
      rfl
  · -- The new value of the sequence is above all that were taken.
    refine List.pairwise_append.2 ⟨h.increasing, List.pairwise_singleton _ _, ?_⟩
    intro a ha b hb
    rw [List.mem_singleton.1 hb]
    exact h.below a ha
  · intro row hrow
    rcases List.mem_append.1 hrow with hrow | hrow
    · exact (h.below row hrow).trans (lt_add_one n)
    · rw [List.mem_singleton.1 hrow]
      exact lt_add_one n
  · intro row hrow
    rw [List.filterMap_append, List.mem_append] at hrow
    rcases hrow with hrow | hrow
    · exact h.linear.1 row hrow
    · -- The timestamp is read back as the instant that was hashed.
      have hdate : (Timestamptz.finite (now * 1000)).toDate = timeClip now := by
        rw [Timestamptz.toDate, Int.mul_ediv_cancel _ (by norm_num)]
      rw [List.mem_singleton.1 hrow]
      simp only [HashMatches, AuditContent.recompute, insertedRow, hdate, htime]
      rfl
  · rw [List.filterMap_append, linked_append]
    exact ⟨h.linear.2, htip.symm, trivial⟩

/-! ## Runs -/

/-- What the call that holds the lock has done so far is sound. -/
def CriticalSection.Sound (table : List StoredRow) (nextSeq : ℤ) : CriticalSection → Prop
  | .locked _ => True
  | .read _ now timestamp previousHash =>
    canonicalizeTimestamp (timeClip now) = .ok timestamp ∧
      tip key genesisKey (table.filterMap StoredRow.read) = some previousHash
  | .inserted row => Appended (table ++ [row]) nextSeq

/-- The invariant of the appends. -/
def AppendState.Inv (s : AppendState) : Prop :=
  Appended s.table s.nextSeq ∧ ∀ c ∈ s.critical, c.2.Sound s.table s.nextSeq

/-- No step breaks the invariant. -/
theorem appendStep_inv (s : AppendState) (a : AppendAction) (t : AppendState) (hs : s.Inv)
    (hst : appendStep s a = some t) : t.Inv := by
  obtain ⟨htable, hcritical⟩ := hs
  cases a with
  | call id entry =>
    obtain rfl := Option.some.inj hst
    exact ⟨htable, hcritical⟩
  | lock id =>
    simp only [appendStep] at hst
    split at hst
    · obtain rfl := Option.some.inj hst
      exact ⟨htable, by simp [CriticalSection.Sound]⟩
    · exact absurd hst (by simp)
  | readTail now =>
    simp only [appendStep] at hst
    split at hst
    next htime =>
      obtain rfl := Option.some.inj hst
      -- The tail is read under the lock, so that it stays the tail until the insert.
      refine ⟨htable, ?_⟩
      rintro c hc
      obtain rfl := Option.some.inj hc
      exact ⟨htime, htable.tip_eq⟩
    · exact absurd hst (by simp)
  | insert rowId =>
    simp only [appendStep] at hst
    split at hst
    next id entry now timestamp previousHash hc =>
      obtain rfl := Option.some.inj hst
      obtain ⟨htime, htip⟩ := hcritical _ hc
      -- The new row is seen in the critical section only, until the commit.
      refine ⟨htable.mono (by simp), ?_⟩
      rintro c hc
      obtain rfl := Option.some.inj hc
      exact htable.insert entry rowId htime htip
    · exact absurd hst (by simp)
  | commit =>
    simp only [appendStep] at hst
    split at hst
    next id row hc =>
      obtain rfl := Option.some.inj hst
      exact ⟨hcritical _ hc, by simp⟩
    · exact absurd hst (by simp)
  | fail id =>
    simp only [appendStep] at hst
    split at hst
    · split_ifs at hst
      · obtain rfl := Option.some.inj hst
        exact ⟨htable, by simp⟩
      · obtain rfl := Option.some.inj hst
        exact ⟨htable, hcritical⟩
    · obtain rfl := Option.some.inj hst
      exact ⟨htable, hcritical⟩

/-- The invariant holds before the first call. -/
theorem AppendState.init_inv : AppendState.init.Inv := ⟨Appended.nil 1, by simp [init]⟩

/-- Whatever the order of the steps, committed appends leave an appended table. -/
theorem appended_of_reachable {s : AppendState} (h : Reachable appendStep .init s) :
    Appended s.table s.nextSeq :=
  (h.invariant appendStep_inv AppendState.init_inv).1

/-- Without collisions, the verification accepts an appended table. -/
theorem Appended.verifyChain_eq {table : List StoredRow} {n : ℤ} (h : Appended table n)
    (hcf : CollisionFree (selectChain table)) : verifyChain table = .ok .valid := by
  have hrows := selectChain_of_increasing h.increasing
  rw [hrows] at hcf
  rw [verifyChain, hrows]
  exact h.linear.verifyRows_eq hcf

end AlsaqiBackend.Audit
