import AlsaqiBackend.Audit.Chain
import AlsaqiBackend.Lib.Linked

/-!
# What the verification of the chain decides

`verifyChain` makes two passes over the rows in the order of `seq`. The first recomputes every hash.
The second makes set-level checks: a row names the genesis hash or the hash of some row, wherever it
stands, and no two rows name the same hash. `verifyRows_eq_valid_iff` says exactly when the rows are
accepted, and `verifyRows_eq_invalid` what a report of an offending row means.

From them follow the two questions of this module. `verifyChain_linear_iff`: the set-level checks
accept exactly the tables whose rows can be arranged in a linear chain, so they agree with linkage in
the order of `seq` exactly when no other order of the rows is linear. `firstOffender_iff`: as the
first pass runs over the whole table before the second, the first offending row is reported exactly
when no row with a broken link stands before the first row with a wrong hash.
-/

namespace AlsaqiBackend.Audit

open AlsaqiBackend.Lib

namespace AuditTrailRow

/-- The key of a row in the chain: its hash. -/
def key (row : AuditTrailRow) : Option String := some row.hash

/-- The key that a row names: its previous hash. -/
def prev (row : AuditTrailRow) : Option String := row.previousHash

/-- The stored hash is the one that recomputes from the columns. -/
def HashMatches (row : AuditTrailRow) : Prop := row.recompute = .ok row.hash

/-- A hash recomputes from the columns, and it is not the stored one. -/
def HashMismatch (row : AuditTrailRow) : Prop := ∃ hash, row.recompute = .ok hash ∧ hash ≠ row.hash

/-- The row names a hash, other than that of the genesis, that no row has. -/
def MissingPredecessor (rows : List AuditTrailRow) (row : AuditTrailRow) : Prop :=
  row.prev ≠ some GENESIS_PREVIOUS_HASH ∧ row.prev ∉ rows.map key

/-- The row names a hash that another row names too. -/
def SharesPrevious (rows : List AuditTrailRow) (row : AuditTrailRow) : Prop :=
  1 < (rows.map prev).count row.prev

instance (row : AuditTrailRow) : Decidable row.HashMatches :=
  inferInstanceAs (Decidable (_ = _))

instance (rows : List AuditTrailRow) (row : AuditTrailRow) :
    Decidable (row.MissingPredecessor rows) :=
  inferInstanceAs (Decidable (_ ∧ _))

instance (rows : List AuditTrailRow) (row : AuditTrailRow) : Decidable (row.SharesPrevious rows) :=
  inferInstanceAs (Decidable (1 < _))

end AuditTrailRow

open AuditTrailRow

/-- The condition that each reason of a failure names. -/
def Violates (rows : List AuditTrailRow) : VerificationFailureReason → AuditTrailRow → Prop
  | .hashMismatch => HashMismatch
  | .gap => MissingPredecessor rows
  | .fork => SharesPrevious rows

/-- The genesis key. -/
abbrev genesisKey : Option String := some GENESIS_PREVIOUS_HASH

/-! ## The first pass -/

/-- The first pass goes past a row exactly when its hash matches. -/
theorem checkHash_eq_none_iff (row : AuditTrailRow) : checkHash row = .ok none ↔ row.HashMatches := by
  unfold checkHash HashMatches
  cases h : row.recompute with
  | error e => simp [bind, Except.bind]
  | ok hash =>
    by_cases heq : hash = row.hash
    · simp [bind, Except.bind, pure, Except.pure, heq]
    · simp [bind, Except.bind, pure, Except.pure, heq]

/-- The first pass stops at a row exactly when it recomputes another hash. -/
theorem checkHash_eq_some_iff (row : AuditTrailRow) (reason : VerificationFailureReason) :
    checkHash row = .ok (some reason) ↔ row.HashMismatch ∧ reason = .hashMismatch := by
  unfold checkHash HashMismatch
  cases h : row.recompute with
  | error e => simp [bind, Except.bind]
  | ok hash =>
    by_cases heq : hash = row.hash
    · simp [bind, Except.bind, pure, Except.pure, heq]
    · simp [bind, Except.bind, pure, Except.pure, heq, eq_comm]

/-- The first pass goes through exactly when every hash matches. -/
theorem checkHashes_eq_none_iff (rows : List AuditTrailRow) :
    checkHashes rows = .ok none ↔ ∀ row ∈ rows, row.HashMatches := by
  induction rows with
  | nil => simp [checkHashes]
  | cons row rows ih =>
    rw [List.forall_mem_cons, ← ih, ← checkHash_eq_none_iff, checkHashes]
    cases h : checkHash row with
    | error e => simp [bind, Except.bind]
    | ok r => cases r <;> simp [bind, Except.bind, pure, Except.pure]

/-- The first pass goes past rows whose hashes match. -/
theorem checkHashes_append {before : List AuditTrailRow} (h : ∀ b ∈ before, b.HashMatches)
    (rows : List AuditTrailRow) : checkHashes (before ++ rows) = checkHashes rows := by
  induction before with
  | nil => rfl
  | cons b before ih =>
    rw [List.forall_mem_cons] at h
    rw [List.cons_append, checkHashes, (checkHash_eq_none_iff b).2 h.1]
    exact ih h.2

/-- The first pass reports a row with a wrong hash when the hashes before it match. -/
theorem checkHashes_mismatch {before : List AuditTrailRow} (h : ∀ b ∈ before, b.HashMatches)
    {row : AuditTrailRow} (hrow : row.HashMismatch) (after : List AuditTrailRow) :
    checkHashes (before ++ row :: after) = .ok (some (.invalid row.id .hashMismatch)) := by
  rw [checkHashes_append h, checkHashes, (checkHash_eq_some_iff row .hashMismatch).2 ⟨hrow, rfl⟩]
  rfl

/-- What the first pass reports is a row with a wrong hash, and the hashes before it match. -/
theorem checkHashes_eq_some {rows : List AuditTrailRow} {result : VerifyChainResult}
    (h : checkHashes rows = .ok (some result)) : ∃ before row after, rows = before ++ row :: after ∧
      (∀ b ∈ before, b.HashMatches) ∧ row.HashMismatch ∧ result = .invalid row.id .hashMismatch := by
  induction rows with
  | nil => simp [checkHashes] at h
  | cons row rows ih =>
    rw [checkHashes] at h
    cases hrow : checkHash row with
    | error e => simp [hrow, bind, Except.bind] at h
    | ok found =>
      cases found with
      | some reason =>
        obtain ⟨hmis, rfl⟩ := (checkHash_eq_some_iff row reason).1 hrow
        simp only [hrow, bind, Except.bind, pure, Except.pure, Except.ok.injEq,
          Option.some.injEq] at h
        exact ⟨[], row, rows, rfl, by simp, hmis, h.symm⟩
      | none =>
        simp only [hrow, bind, Except.bind] at h
        obtain ⟨before, row', after, rfl, hbefore, hmis, hres⟩ := ih h
        have hmatch := (checkHash_eq_none_iff row).1 hrow
        exact ⟨row :: before, row', after, rfl, by simpa [hmatch] using hbefore, hmis, hres⟩

/-! ## The second pass -/

/-- The index has a key exactly when a row has that hash. -/
theorem indexByHash_has (rows : List AuditTrailRow) (k : Option String) :
    (indexByHash rows).has k = true ↔ k ∈ rows.map key := by
  refine (JsMap.has_foldl_set key id rows JsMap.empty k).trans ?_
  simp [JsMap.has, JsMap.empty]

/-- The counts are those of the previous hashes. -/
theorem countPreviousHashes_get (rows : List AuditTrailRow) (k : Option String) :
    ((countPreviousHashes rows).get k).getD 0 = (rows.map prev).count k := by
  refine (JsMap.get_foldl_count prev rows JsMap.empty k).trans ?_
  simp [JsMap.get, JsMap.empty]

/-- The second pass stops at a row for a missing predecessor, or else for a shared one. -/
theorem checkLink_eq (rows : List AuditTrailRow) (row : AuditTrailRow) :
    checkLink (indexByHash rows) (countPreviousHashes rows) row =
      if row.MissingPredecessor rows then some .gap
      else if row.SharesPrevious rows then some .fork else none := by
  unfold checkLink
  by_cases hgen : row.previousHash = some GENESIS_PREVIOUS_HASH
  · have hpresent : ¬ row.MissingPredecessor rows := fun h => h.1 hgen
    rw [if_pos hgen, if_neg hpresent, countPreviousHashes_get, ← hgen]
    rfl
  · rw [if_neg hgen, countPreviousHashes_get]
    by_cases hhas : (indexByHash rows).has row.previousHash = true
    · have hpresent : ¬ row.MissingPredecessor rows :=
        fun h => h.2 ((indexByHash_has rows _).1 hhas)
      rw [if_neg (by simp [hhas]), if_neg hpresent]
      rfl
    · have hmissing : row.MissingPredecessor rows :=
        ⟨hgen, fun h => hhas ((indexByHash_has rows _).2 h)⟩
      rw [if_pos (by simp [hhas]), if_pos hmissing]

/-- The second pass goes past a row exactly when its link is sound. -/
theorem checkLink_eq_none_iff (rows : List AuditTrailRow) (row : AuditTrailRow) :
    checkLink (indexByHash rows) (countPreviousHashes rows) row = none ↔
      ¬ row.MissingPredecessor rows ∧ ¬ row.SharesPrevious rows := by
  rw [checkLink_eq]
  split_ifs <;> simp_all

/-- The reason that the second pass gives names a condition that the row violates. -/
theorem checkLink_violates {rows : List AuditTrailRow} {row : AuditTrailRow}
    {reason : VerificationFailureReason}
    (h : checkLink (indexByHash rows) (countPreviousHashes rows) row = some reason) :
    Violates rows reason row := by
  rw [checkLink_eq] at h
  split_ifs at h with hgap hfork
  · obtain rfl := Option.some.inj h
    exact hgap
  · obtain rfl := Option.some.inj h
    exact hfork

/-- The second pass accepts exactly the rows whose links are all sound. -/
theorem checkLinks_eq_valid_iff (byHash : JsMap (Option String) AuditTrailRow)
    (counts : JsMap (Option String) ℕ) (rows : List AuditTrailRow) :
    checkLinks byHash counts rows = .valid ↔ ∀ row ∈ rows, checkLink byHash counts row = none := by
  induction rows with
  | nil => simp [checkLinks]
  | cons row rows ih =>
    rw [List.forall_mem_cons, ← ih, checkLinks]
    cases h : checkLink byHash counts row <;> simp

/-- What the second pass reports is the first row whose link is not sound. -/
theorem checkLinks_eq_invalid {byHash : JsMap (Option String) AuditTrailRow}
    {counts : JsMap (Option String) ℕ} {rows : List AuditTrailRow} {id : String}
    {reason : VerificationFailureReason} (h : checkLinks byHash counts rows = .invalid id reason) :
    ∃ before row after, rows = before ++ row :: after ∧ row.id = id ∧
      (∀ b ∈ before, checkLink byHash counts b = none) ∧
      checkLink byHash counts row = some reason := by
  induction rows with
  | nil => simp [checkLinks] at h
  | cons row rows ih =>
    rw [checkLinks] at h
    cases hrow : checkLink byHash counts row with
    | some r =>
      simp only [hrow, VerifyChainResult.invalid.injEq] at h
      obtain ⟨rfl, rfl⟩ := h
      exact ⟨[], row, rows, rfl, rfl, by simp, hrow⟩
    | none =>
      simp only [hrow] at h
      obtain ⟨before, row', after, rfl, hid, hbefore, hreason⟩ := ih h
      exact ⟨row :: before, row', after, rfl, hid, by simpa [hrow] using hbefore, hreason⟩

/-- Links are sound throughout exactly when the rows are an intact list. -/
theorem links_sound_iff_intact (rows : List AuditTrailRow) :
    (∀ row ∈ rows, ¬ row.MissingPredecessor rows ∧ ¬ row.SharesPrevious rows) ↔
      Intact key prev genesisKey rows := by
  constructor
  · intro h
    refine ⟨fun row hrow => ?_, List.nodup_iff_count_le_one.2 fun k => ?_⟩
    · by_contra hno
      rw [not_or] at hno
      exact (h row hrow).1 hno
    · by_cases hk : k ∈ rows.map prev
      · obtain ⟨row, hrow, rfl⟩ := List.mem_map.1 hk
        exact not_lt.1 (h row hrow).2
      · rw [List.count_eq_zero_of_not_mem hk]
        exact Nat.zero_le 1
  · rintro ⟨hnames, hnd⟩ row hrow
    refine ⟨fun hmissing => ?_, not_lt.2 (List.nodup_iff_count_le_one.1 hnd _)⟩
    exact (hnames row hrow).elim hmissing.1 hmissing.2

/-! ## The results of the verification -/

/-- The verification accepts exactly the rows whose hashes match and that are an intact list. -/
theorem verifyRows_eq_valid_iff (rows : List AuditTrailRow) : verifyRows rows = .ok .valid ↔
    (∀ row ∈ rows, row.HashMatches) ∧ Intact key prev genesisKey rows := by
  rw [← links_sound_iff_intact, ← checkHashes_eq_none_iff]
  unfold verifyRows
  split_ifs with hlen
  · obtain rfl := List.length_eq_zero_iff.1 hlen
    simp [checkHashes]
  · cases h : checkHashes rows with
    | error e => simp [bind, Except.bind]
    | ok found =>
      cases found with
      | some failure =>
        obtain ⟨before, row, after, -, -, -, rfl⟩ := checkHashes_eq_some h
        simp [bind, Except.bind, pure, Except.pure]
      | none =>
        simp only [bind, Except.bind, pure, Except.pure, Except.ok.injEq, true_and,
          checkLinks_eq_valid_iff, checkLink_eq_none_iff]

/-- When every hash matches, the verification is the second pass. -/
theorem verifyRows_of_matches {rows : List AuditTrailRow} (h : ∀ row ∈ rows, row.HashMatches) :
    verifyRows rows = .ok (checkLinks (indexByHash rows) (countPreviousHashes rows) rows) := by
  unfold verifyRows
  split_ifs with hlen
  · obtain rfl := List.length_eq_zero_iff.1 hlen
    rfl
  · rw [(checkHashes_eq_none_iff rows).2 h]
    rfl

/-- A row with a wrong hash, behind rows whose hashes match, is reported. -/
theorem verifyRows_mismatch {before : List AuditTrailRow} {row : AuditTrailRow}
    (h : ∀ b ∈ before, b.HashMatches) (hrow : row.HashMismatch) (after : List AuditTrailRow) :
    verifyRows (before ++ row :: after) = .ok (.invalid row.id .hashMismatch) := by
  unfold verifyRows
  rw [if_neg (by simp), checkHashes_mismatch h hrow]
  rfl

/-- A reported failure comes from one of the passes. -/
theorem verifyRows_eq_invalid {rows : List AuditTrailRow} {id : String}
    {reason : VerificationFailureReason} (h : verifyRows rows = .ok (.invalid id reason)) :
    (∃ before row after, rows = before ++ row :: after ∧ (∀ b ∈ before, b.HashMatches) ∧
      row.HashMismatch ∧ row.id = id ∧ reason = .hashMismatch) ∨
    ((∀ row ∈ rows, row.HashMatches) ∧ ∃ before row after, rows = before ++ row :: after ∧
      row.id = id ∧ (∀ b ∈ before, ¬ b.MissingPredecessor rows ∧ ¬ b.SharesPrevious rows) ∧
      Violates rows reason row) := by
  by_cases hall : ∀ row ∈ rows, row.HashMatches
  · right
    rw [verifyRows_of_matches hall, Except.ok.injEq] at h
    obtain ⟨before, row, after, hrows, hid, hbefore, hreason⟩ := checkLinks_eq_invalid h
    refine ⟨hall, before, row, after, hrows, hid, fun b hb => ?_, checkLink_violates hreason⟩
    exact (checkLink_eq_none_iff rows b).1 (hbefore b hb)
  · left
    rw [← checkHashes_eq_none_iff] at hall
    unfold verifyRows at h
    rw [if_neg (by rintro hlen; exact hall (by rw [List.length_eq_zero_iff.1 hlen]; rfl))] at h
    cases hpass : checkHashes rows with
    | error e => simp [hpass, bind, Except.bind] at h
    | ok found =>
      cases found with
      | none => exact absurd hpass hall
      | some failure =>
        obtain ⟨before, row, after, hrows, hbefore, hmis, rfl⟩ := checkHashes_eq_some hpass
        simp only [hpass, bind, Except.bind, pure, Except.pure, Except.ok.injEq,
          VerifyChainResult.invalid.injEq] at h
        exact ⟨before, row, after, hrows, hbefore, hmis, h.1, h.2.symm⟩

/-! ## Linear linkage -/

/-- The rows are a linear chain in their order: every hash recomputes, the first row names the
genesis hash, and every later row names the hash of the row before it. -/
def LinearChain (rows : List AuditTrailRow) : Prop :=
  (∀ row ∈ rows, row.HashMatches) ∧ Linked key prev genesisKey rows

/-- A row leads from the hash that it names to the digest of its columns. -/
def DigestFeeds (rows : List AuditTrailRow) (k k' : Option String) : Prop :=
  ∃ row ∈ rows, row.prev = k ∧ ∃ digest, row.recompute = .ok digest ∧ k' = some digest

/-- SHA-256 has no cycle on the texts of the rows. -/
def DigestsCycleFree (rows : List AuditTrailRow) : Prop :=
  ∀ k, ¬ Relation.TransGen (DigestFeeds rows) k k

/-- SHA-256 gives different digests to the different texts of the rows. -/
def CollisionFree (rows : List AuditTrailRow) : Prop :=
  ∀ a ∈ rows, ∀ b ∈ rows, a.recompute = b.recompute → a.recordData = b.recordData

instance (rows : List AuditTrailRow) : Decidable (CollisionFree rows) :=
  inferInstanceAs (Decidable (∀ a ∈ rows, ∀ b ∈ rows, _ → _))

/-- Rows whose hashes match and are different have no collision. -/
theorem collisionFree_of_nodup {rows : List AuditTrailRow} (h : ∀ row ∈ rows, row.HashMatches)
    (hnd : (rows.map AuditTrailRow.hash).Nodup) : CollisionFree rows := by
  intro a ha b hb hab
  rw [h a ha, h b hb, Except.ok.injEq] at hab
  rw [List.inj_on_of_nodup_map hnd ha hb hab]

/-- Rows whose stored hashes are their digests have no cycle when the digests have none. -/
theorem DigestsCycleFree.cycleFree {rows : List AuditTrailRow} (h : DigestsCycleFree rows)
    (hmatch : ∀ row ∈ rows, row.HashMatches) : CycleFree key prev rows := by
  intro k hk
  refine h k (Relation.TransGen.mono (fun a b hab => ?_) k k hk)
  obtain ⟨row, hrow, hprev, hkey⟩ := hab
  exact ⟨row, hrow, hprev, row.hash, hmatch row hrow, hkey.symm⟩

/-- Where SHA-256 has no cycle, the verification accepts exactly the rows that are a linear chain in
some order. -/
theorem verifyRows_valid_iff_exists_linear {rows : List AuditTrailRow}
    (hcf : DigestsCycleFree rows) :
    verifyRows rows = .ok .valid ↔ ∃ order, order.Perm rows ∧ LinearChain order := by
  rw [verifyRows_eq_valid_iff]
  constructor
  · rintro ⟨hmatch, hintact⟩
    -- Set-level checks on rows without a cycle leave one way to line them up.
    obtain ⟨order, hperm, hlinked⟩ := hintact.exists_linked (hcf.cycleFree hmatch)
    exact ⟨order, hperm, fun row hrow => hmatch row (hperm.mem_iff.1 hrow), hlinked⟩
  · rintro ⟨order, hperm, hmatch, hlinked⟩
    have hmatch' : ∀ row ∈ rows, row.HashMatches := fun row hrow =>
      hmatch row (hperm.mem_iff.2 hrow)
    have hcf' : CycleFree key prev order :=
      (hcf.cycleFree hmatch').mono fun row hrow => hperm.mem_iff.1 hrow
    exact ⟨hmatch', (hlinked.intact (hlinked.nodup_of_cycleFree hcf')).perm hperm⟩

/-- Where SHA-256 has no cycle, `verifyChain` decides linear linkage in the order of `seq` exactly
for the tables whose rows are a linear chain in no other order. -/
theorem verifyChain_linear_iff (table : List StoredRow)
    (hcf : DigestsCycleFree (selectChain table)) :
    (verifyChain table = .ok .valid ↔ LinearChain (selectChain table)) ↔
      ∀ order, order.Perm (selectChain table) → LinearChain order → order = selectChain table := by
  rw [verifyChain, verifyRows_valid_iff_exists_linear hcf]
  constructor
  · intro h order hperm hlinear
    have hrows := h.1 ⟨order, hperm, hlinear⟩
    have hcf' : CycleFree key prev order :=
      (hcf.cycleFree hrows.1).mono fun row hrow => hperm.mem_iff.1 hrow
    have hintact := hlinear.2.intact (hlinear.2.nodup_of_cycleFree hcf')
    exact hlinear.2.unique hrows.2 hperm hintact.2
  · intro h
    constructor
    · rintro ⟨order, hperm, hlinear⟩
      rw [← h order hperm hlinear]
      exact hlinear
    · intro hlinear
      exact ⟨_, List.Perm.refl _, hlinear⟩

/-- A login of `alice` at the start of 2024, appended to an empty table. -/
def aliceLogin : StoredRow where
  id := "a"
  user := "alice"
  action := "Login"
  module := "Auth"
  details := some ""
  previousHash := some "0"
  timestamp := .finite 1704067200000000
  hash := some "1d17518b0ad4ee2f2f4487343a0ec13087deb0db8c039a2b923ac8ab22670b41"
  seq := 1

/-- A login of `bob` in the same millisecond, appended after that of `alice`. -/
def bobLogin : StoredRow where
  id := "b"
  user := "bob"
  action := "Login"
  module := "Auth"
  details := some ""
  previousHash := some "1d17518b0ad4ee2f2f4487343a0ec13087deb0db8c039a2b923ac8ab22670b41"
  timestamp := .finite 1704067200000000
  hash := some "791beecfafb6c135c3c4f970966f1e02dc409c2f293d7546dc3d43ced044660d"
  seq := 2

/-- Both logins have the hash that recomputes. -/
theorem logins_hashMatch : ∀ row ∈ [aliceLogin, bobLogin].filterMap StoredRow.read,
    row.HashMatches := by
  decide +kernel

/-- The two logins have no cycle of digests, in whatever order they stand. -/
theorem logins_cycleFree {rows : List AuditTrailRow}
    (h : rows.Perm ([aliceLogin, bobLogin].filterMap StoredRow.read)) : DigestsCycleFree rows := by
  refine not_transGen_self_of_rank
    (fun k => if k = some "0" then 0 else if k = aliceLogin.hash then 1 else 2) ?_
  rintro k k' ⟨row, hrow, rfl, digest, hdigest, rfl⟩
  -- Both rows lead upwards: from the genesis hash to the first login, and from there to the second.
  have hmem := h.mem_iff.1 hrow
  rw [logins_hashMatch row hmem, Except.ok.injEq] at hdigest
  subst hdigest
  revert row
  simp only [h.mem_iff]
  decide

/-- The two logins in the order in which they were appended: they are a linear chain, the
verification accepts them, and their order is the only linear one. -/
theorem verifyChain_linear_logins : verifyChain [aliceLogin, bobLogin] = .ok .valid ∧
    ∀ order, order.Perm (selectChain [aliceLogin, bobLogin]) → LinearChain order →
      order = selectChain [aliceLogin, bobLogin] := by
  have hrows : selectChain [aliceLogin, bobLogin] =
      [aliceLogin, bobLogin].filterMap StoredRow.read := by decide
  have hlinear : LinearChain (selectChain [aliceLogin, bobLogin]) := by
    rw [hrows]
    exact ⟨logins_hashMatch, rfl, rfl, trivial⟩
  have hvalid : verifyChain [aliceLogin, bobLogin] = .ok .valid :=
    (verifyRows_eq_valid_iff _).2 ⟨hlinear.1, by decide, by decide⟩
  refine ⟨hvalid, (verifyChain_linear_iff [aliceLogin, bobLogin] ?_).1 ?_⟩
  · exact logins_cycleFree (List.Perm.of_eq hrows)
  · exact ⟨fun _ => hlinear, fun _ => hvalid⟩

/-- The two logins with their sequence numbers exchanged: the verification still accepts them, and
they are no linear chain in the order of `seq`. -/
theorem verifyChain_accepts_swapped_logins :
    ∃ table, DigestsCycleFree (selectChain table) ∧ CollisionFree (selectChain table) ∧
      ¬ (verifyChain table = .ok .valid ↔ LinearChain (selectChain table)) := by
  let table : List StoredRow := [{ aliceLogin with seq := 2 }, { bobLogin with seq := 1 }]
  have hperm : (selectChain table).Perm ([aliceLogin, bobLogin].filterMap StoredRow.read) := by
    decide
  have hmatch : ∀ row ∈ selectChain table, row.HashMatches := fun row hrow =>
    logins_hashMatch row (hperm.mem_iff.1 hrow)
  refine ⟨table, logins_cycleFree hperm, collisionFree_of_nodup hmatch (by decide), fun h => ?_⟩
  have hvalid : verifyChain table = .ok .valid :=
    (verifyRows_eq_valid_iff _).2 ⟨hmatch, by decide, by decide⟩
  exact absurd (h.1 hvalid).2.1 (by decide)

/-! ## The first offending row -/

/-- Every failure that is reported names the first row that violates any of the conditions, and a
condition that this row violates. -/
def FirstOffenderReported (table : List StoredRow) : Prop :=
  ∀ id reason, verifyChain table = .ok (.invalid id reason) →
    ∃ before row after, selectChain table = before ++ row :: after ∧ row.id = id ∧
      Violates (selectChain table) reason row ∧
      ∀ b ∈ before, ∀ reason', ¬ Violates (selectChain table) reason' b

/-- No row with a broken link stands before the first row with a wrong hash. -/
def NoBrokenLinkBeforeMismatch (rows : List AuditTrailRow) : Prop :=
  ∀ before row after, rows = before ++ row :: after → (∀ b ∈ before, b.HashMatches) →
    row.HashMismatch → ∀ b ∈ before, ¬ b.MissingPredecessor rows ∧ ¬ b.SharesPrevious rows

/-- A hash that matches is not a wrong one. -/
theorem AuditTrailRow.HashMatches.not_mismatch {row : AuditTrailRow} (h : row.HashMatches) :
    ¬ row.HashMismatch := by
  rintro ⟨hash, hok, hne⟩
  rw [h, Except.ok.injEq] at hok
  exact hne hok.symm

/-- A row violates no condition when its hash matches and its link is sound. -/
theorem not_violates {rows : List AuditTrailRow} {row : AuditTrailRow} (hhash : row.HashMatches)
    (hlink : ¬ row.MissingPredecessor rows ∧ ¬ row.SharesPrevious rows)
    (reason : VerificationFailureReason) : ¬ Violates rows reason row := by
  cases reason with
  | hashMismatch => exact hhash.not_mismatch
  | fork => exact hlink.2
  | gap => exact hlink.1

/-- The first offending row is reported exactly when no row with a broken link stands before the
first row with a wrong hash. -/
theorem firstOffender_iff (table : List StoredRow) :
    FirstOffenderReported table ↔ NoBrokenLinkBeforeMismatch (selectChain table) := by
  unfold FirstOffenderReported verifyChain
  generalize selectChain table = rows
  constructor
  · intro h before row after hrows hbefore hmis b hb
    have hreport := verifyRows_mismatch hbefore hmis after
    rw [← hrows] at hreport
    obtain ⟨before', row', after', hrows', -, hviol, hclean⟩ := h _ _ hreport
    -- The reported row has a wrong hash, so it does not stand in `before`.
    have hlonger : b ∈ before' := by
      rw [hrows, List.append_eq_append_iff] at hrows'
      rcases hrows' with ⟨t, rfl, -⟩ | ⟨t, rfl, ht⟩
      · exact List.mem_append_left _ hb
      · cases t with
        | nil => simpa using hb
        | cons c t =>
          obtain ⟨rfl, -⟩ := List.cons.inj ht
          exact absurd hviol (hbefore row' (by simp)).not_mismatch
    exact ⟨hclean b hlonger .gap, hclean b hlonger .fork⟩
  · intro h id reason hreport
    rcases verifyRows_eq_invalid hreport with
      ⟨before, row, after, hrows, hbefore, hmis, hid, rfl⟩ |
      ⟨hmatch, before, row, after, hrows, hid, hbefore, hviol⟩
    · have hlinks := h before row after hrows hbefore hmis
      exact ⟨before, row, after, hrows, hid, hmis,
        fun b hb => not_violates (hbefore b hb) (hlinks b hb)⟩
    · refine ⟨before, row, after, hrows, hid, hviol, fun b hb => ?_⟩
      exact not_violates (hmatch b (by rw [hrows]; simp [hb])) (hbefore b hb)

/-- A login whose hash recomputes and whose previous hash no row has, before a row with a wrong
hash. -/
def unlinkedThenForged : List StoredRow :=
  [{ aliceLogin with
      previousHash := some "1"
      hash := some "37bdb341ebd5a7e42cf489648318b72c12cf1c807aa7cb16d86520bc0c53eb4a" },
    { bobLogin with hash := some "" }]

/-- The wrong hash of the second row is reported, and the broken link of the first is not. -/
theorem later_offender_reported : ¬ FirstOffenderReported unlinkedThenForged := by
  intro h
  have hreport : verifyChain unlinkedThenForged = .ok (.invalid "b" .hashMismatch) := by
    decide +kernel
  obtain ⟨before, row, after, hrows, hid, -, hclean⟩ := h _ _ hreport
  cases before with
  | nil =>
    have hfirst : (selectChain unlinkedThenForged).head? = some row := by rw [hrows]; rfl
    have hids : ((selectChain unlinkedThenForged).head?.map fun r => r.id) = some "a" := by decide
    rw [hfirst, Option.map_some, hid] at hids
    exact absurd hids (by decide)
  | cons b before =>
    have hfirst : (selectChain unlinkedThenForged).head? = some b := by rw [hrows]; rfl
    refine hclean b (by simp) .gap ?_
    have hmissing : ∀ r ∈ (selectChain unlinkedThenForged).head?,
        r.MissingPredecessor (selectChain unlinkedThenForged) := by decide
    exact hmissing b hfirst

end AlsaqiBackend.Audit
