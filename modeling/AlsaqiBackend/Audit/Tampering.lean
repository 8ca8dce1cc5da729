import AlsaqiBackend.Audit.Append

/-!
# What the verification sees of a tampered table

A table that appends left is changed behind the back of the service, and `verifyChain` is run on what
is left of it.

- `edit_detected_iff`: an edit of the hashed columns of one row is reported as a wrong hash exactly
  when the new timestamp reads as a date and the hashed text is another one. The columns are joined
  without escaping the separator, so text that moves over a separator is not seen, and neither is a
  timestamp that changes by less than a millisecond.
- `verifyChain_of_deletions`: what is left after rows were deleted is accepted exactly when it is a
  beginning of the table, and any other remainder is reported as a gap.
-/

namespace AlsaqiBackend.Audit

open AlsaqiBackend.Lib AuditTrailRow

/-! ## Edits of one row -/

/-- New values for the hashed columns of a row, apart from its previous hash. -/
structure RowEdit where
  user : String
  action : String
  module : String
  details : Option String
  timestamp : Timestamptz
  deriving DecidableEq, Repr

/-- The columns with the new values in them. -/
def RowEdit.content (edit : RowEdit) (row : AuditContent) : AuditContent :=
  { row with
    user := edit.user
    action := edit.action
    module := edit.module
    details := edit.details
    timestamp := edit.timestamp }

/-- The row with the new values: its id, both hashes and `seq` stay as they are. -/
def RowEdit.apply (edit : RowEdit) (row : StoredRow) : StoredRow :=
  { row with toAuditContent := edit.content row.toAuditContent }

/-- The columns before the timestamp, joined as in the hashed text. -/
def fieldsText (user action module : String) (details : Option String) : String :=
  user ++ "|" ++ action ++ "|" ++ module ++ "|" ++ templateText details

/-- The joined columns of an edit. -/
def RowEdit.fieldsText (edit : RowEdit) : String :=
  Audit.fieldsText edit.user edit.action edit.module edit.details

/-- The joined columns of a row. -/
def AuditContent.fieldsText (row : AuditContent) : String :=
  Audit.fieldsText row.user row.action row.module row.details

/-- The time value of a date is in the range of dates. -/
theorem Timestamptz.abs_toDate_le {timestamp : Timestamptz} {time : ℤ}
    (h : timestamp.toDate = some time) : |time| ≤ maxTimeValue := by
  cases timestamp with
  | finite micros =>
    rw [toDate, timeClip] at h
    split_ifs at h with hle
    rwa [← Option.some.inj h]
  | infinity => exact absurd h (by simp [toDate])
  | negInfinity => exact absurd h (by simp [toDate])

/-- Behind one previous hash, the hashed text determines the joined columns and the time value: the
text of a date has no separator in it. -/
theorem recordData_inj_iff {t t' : ℤ} (ht : |t| ≤ maxTimeValue) (ht' : |t'| ≤ maxTimeValue)
    (previousHash user action module user' action' module' : String) (details details' : Option String) :
    recordData previousHash user action module (templateText details) (toISOString t) =
        recordData previousHash user' action' module' (templateText details') (toISOString t') ↔
      fieldsText user action module details = fieldsText user' action' module' details' ∧
        t = t' := by
  have hsep : ∀ u, '|' ∉ isoChars u :=
    notMem_isoChars (digitChar_ne (by decide) (by decide)) (by decide)
  have hchars : ∀ user action module details u,
      (user ++ "|" ++ action ++ "|" ++ module ++ "|" ++ templateText details ++ "|"
        ++ toISOString u).toList =
      (fieldsText user action module details).toList ++ '|' :: isoChars u := by
    intro user action module details u
    simp [fieldsText, toISOString]
  rw [← String.toList_inj, recordData_toList, recordData_toList, List.append_cancel_left_eq,
    List.cons.injEq, hchars, hchars, cut_at_last (hsep t) (hsep t'), String.toList_inj]
  constructor
  · rintro ⟨-, hfields, htime⟩
    exact ⟨hfields, isoChars_inj ht ht' htime⟩
  · rintro ⟨hfields, rfl⟩
    exact ⟨rfl, hfields, rfl⟩

/-- The verification throws at a row whose digest cannot be computed, when the hashes before it
match. -/
theorem verifyRows_error {before : List AuditTrailRow} {row : AuditTrailRow} {e : JsError}
    (h : ∀ b ∈ before, b.HashMatches) (hrow : row.recompute = .error e)
    (after : List AuditTrailRow) : verifyRows (before ++ row :: after) = .error e := by
  unfold verifyRows
  rw [if_neg (by simp), checkHashes_append h, checkHashes, checkHash, hrow]
  rfl

/-- Rows whose hashes match are not reported as having a wrong one. -/
theorem verifyRows_ne_mismatch {rows : List AuditTrailRow} (h : ∀ row ∈ rows, row.HashMatches)
    (id : String) : verifyRows rows ≠ .ok (.invalid id .hashMismatch) := by
  intro hreport
  rcases verifyRows_eq_invalid hreport with
    ⟨before, row, after, rfl, -, hmis, -⟩ | ⟨-, before, row, after, rfl, -, -, hviol⟩
  · exact (h row (by simp)).not_mismatch hmis
  · exact (h row (by simp)).not_mismatch hviol

/-- A row with a wrong hash in place of one of rows whose hashes match, and only such a row, is
reported as having a wrong hash. -/
theorem verifyRows_replace_iff {before : List AuditTrailRow} (hbefore : ∀ b ∈ before, b.HashMatches)
    {after : List AuditTrailRow} (hafter : ∀ b ∈ after, b.HashMatches) (row : AuditTrailRow) :
    (∃ id, verifyRows (before ++ row :: after) = .ok (.invalid id .hashMismatch)) ↔
      row.HashMismatch := by
  constructor
  · rintro ⟨id, hreport⟩
    cases hrow : row.recompute with
    | error e =>
      rw [verifyRows_error hbefore hrow] at hreport
      exact absurd hreport (by simp)
    | ok hash =>
      -- If the digest were the stored hash, every hash of the table would match.
      refine ⟨hash, hrow, fun heq => ?_⟩
      have hmatch : row.HashMatches := by rw [HashMatches, hrow, heq]
      have hall : ∀ b ∈ before ++ row :: after, b.HashMatches := by
        intro b hb
        rw [List.mem_append, List.mem_cons] at hb
        rcases hb with hb | rfl | hb
        · exact hbefore b hb
        · exact hmatch
        · exact hafter b hb
      exact verifyRows_ne_mismatch hall id hreport
  · intro hmis
    exact ⟨row.id, verifyRows_mismatch hbefore hmis after⟩

/-- Without collisions, a row that has the hash of a row with a matching one has a wrong hash exactly
when it has another text. -/
theorem hashMismatch_iff_recordData {row : AuditTrailRow} (hmatch : row.HashMatches)
    (row' : AuditTrailRow) (hhash : row'.hash = row.hash) (hcf : CollisionFree [row, row']) :
    row'.HashMismatch ↔ ∃ text, row'.recordData = .ok text ∧ row.recordData ≠ .ok text := by
  obtain ⟨old, hold, hdigest⟩ := hmatch.exists_text
  unfold HashMismatch
  rw [AuditContent.recompute_eq]
  cases htext : row'.recordData with
  | error e => simp [Except.map]
  | ok text =>
    -- One digest means one text, as there is no collision.
    have hsame : sha256Hex text = row'.hash ↔ row.recordData = .ok text := by
      constructor
      · intro h
        have hrecompute : row.recompute = row'.recompute := by
          rw [hmatch, AuditContent.recompute_eq, htext, Except.map, h, hhash]
        rw [hcf row (by simp) row' (by simp) hrecompute, htext]
      · intro h
        rw [hold, Except.ok.injEq] at h
        rw [hhash, hdigest, h]
    simp [Except.map, hsame]

/-- The new values give a row a wrong hash exactly when its timestamp reads as a date and the joined
columns or the date are others. -/
theorem RowEdit.hashMismatch_iff (edit : RowEdit) {row : AuditContent} {hash : String}
    (hmatch : HashMatches ⟨row, hash⟩) (hcf : CollisionFree [⟨row, hash⟩, ⟨edit.content row, hash⟩]) :
    HashMismatch ⟨edit.content row, hash⟩ ↔
      edit.timestamp.toDate.isSome ∧
        (edit.fieldsText ≠ row.fieldsText ∨ edit.timestamp.toDate ≠ row.timestamp.toDate) := by
  obtain ⟨old, hold, -⟩ := hmatch.exists_text
  obtain ⟨time, hdate, rfl⟩ := (row.recordData_eq_ok_iff old).1 hold
  rw [hashMismatch_iff_recordData hmatch ⟨edit.content row, hash⟩ rfl hcf, hold]
  simp only [AuditContent.recordData_eq_ok_iff]
  constructor
  · rintro ⟨_, ⟨time', hnew, rfl⟩, hne⟩
    refine ⟨by rw [show edit.timestamp.toDate = some time' from hnew]; rfl, ?_⟩
    by_contra hsame
    rw [not_or, not_not, not_not, hdate] at hsame
    obtain rfl := Option.some.inj (hnew.symm.trans hsame.2)
    refine hne (congrArg Except.ok ?_)
    exact (recordData_inj_iff (Timestamptz.abs_toDate_le hdate) (Timestamptz.abs_toDate_le hdate)
      _ _ _ _ _ _ _ _ _).2 ⟨hsame.1.symm, rfl⟩
  · rintro ⟨hsome, hdiff⟩
    obtain ⟨time', hnew⟩ := Option.isSome_iff_exists.1 hsome
    refine ⟨_, ⟨time', hnew, rfl⟩, fun hsame => ?_⟩
    have hinj := (recordData_inj_iff (Timestamptz.abs_toDate_le hdate)
      (Timestamptz.abs_toDate_le hnew) _ _ _ _ _ _ _ _ _).1 (Except.ok.inj hsame)
    rw [hdate, hnew, ne_eq (some time'), Option.some.injEq] at hdiff
    exact hdiff.elim (fun h => h hinj.1.symm) (fun h => h hinj.2.symm)

/-- An edit leaves `seq` as it is, so the rows stay in its order. -/
theorem RowEdit.increasing (edit : RowEdit) {before after : List StoredRow} {row : StoredRow}
    (h : (before ++ row :: after).Pairwise fun a b => a.seq < b.seq) :
    (before ++ edit.apply row :: after).Pairwise fun a b => a.seq < b.seq := by
  have hmap : (before ++ edit.apply row :: after).map StoredRow.seq =
      (before ++ row :: after).map StoredRow.seq := by simp [RowEdit.apply]
  have hseq : ((before ++ row :: after).map StoredRow.seq).Pairwise (· < ·) :=
    List.pairwise_map.2 h
  rw [← hmap] at hseq
  exact List.pairwise_map.1 hseq

/-- An edit of a row of an appended table is reported as a wrong hash exactly when the new timestamp
reads as a date and the joined columns or the date are others. -/
theorem edit_detected_iff {s : AppendState} (h : Reachable appendStep .init s)
    {before after : List StoredRow} {row : StoredRow} (htable : s.table = before ++ row :: after)
    (edit : RowEdit) (hcf : CollisionFree ([row, edit.apply row].filterMap StoredRow.read)) :
    (∃ id, verifyChain (before ++ edit.apply row :: after) = .ok (.invalid id .hashMismatch)) ↔
      edit.timestamp.toDate.isSome ∧
        (edit.fieldsText ≠ row.fieldsText ∨ edit.timestamp.toDate ≠ row.timestamp.toDate) := by
  have happended := appended_of_reachable h
  rw [htable] at happended
  have hincreasing := edit.increasing happended.increasing
  obtain ⟨hash, hhash⟩ := Option.isSome_iff_exists.1 (happended.hashed row (by simp))
  have hread : row.read = some ⟨row.toAuditContent, hash⟩ := by simp [StoredRow.read, hhash]
  have hread' : (edit.apply row).read = some ⟨edit.content row.toAuditContent, hash⟩ := by
    simp [StoredRow.read, RowEdit.apply, hhash]
  have hmatches := happended.linear.1
  simp only [List.filterMap_append, List.filterMap_cons, hread] at hmatches
  simp only [List.filterMap_cons, hread, hread', List.filterMap_nil] at hcf
  simp only [verifyChain, selectChain_of_increasing hincreasing, List.filterMap_append,
    List.filterMap_cons, hread']
  have hbefore : ∀ b ∈ before.filterMap StoredRow.read, b.HashMatches := fun b hb =>
    hmatches b (List.mem_append_left _ hb)
  have hafter : ∀ b ∈ after.filterMap StoredRow.read, b.HashMatches := fun b hb =>
    hmatches b (List.mem_append_right _ (List.mem_cons_of_mem _ hb))
  have hrow : HashMatches ⟨row.toAuditContent, hash⟩ := hmatches _ (by simp)
  rw [verifyRows_replace_iff hbefore hafter]
  exact edit.hashMismatch_iff hrow hcf

/-- One append, of an entry with the separator in its user. -/
def singleAppend : List AppendAction :=
  [.call 1 ⟨"a|b", "Login", "Auth", ""⟩, .lock 1, .readTail 1704067200000, .insert "x", .commit]

/-- The row that it leaves. -/
def singleRow : StoredRow :=
  insertedRow ⟨"a|b", "Login", "Auth", ""⟩ 1704067200000 "2024-01-01T00:00:00.000Z" "0" "x" 1

/-- The row is all that the append leaves. -/
theorem run_singleAppend :
    run appendStep .init singleAppend = some ⟨[singleRow], 2, [], none⟩ := by
  decide +kernel

/-- Another user in the row is reported. -/
theorem edit_of_user_detected :
    ∃ id, verifyChain [(RowEdit.mk "c" "Login" "Auth" (some "") singleRow.timestamp).apply singleRow] =
      .ok (.invalid id .hashMismatch) := by
  refine (edit_detected_iff ⟨_, run_singleAppend⟩ (List.nil_append _).symm
    (RowEdit.mk "c" "Login" "Auth" (some "") singleRow.timestamp) ?_).2 ?_
  · decide +kernel
  · decide

/-- The end of the user moved to the beginning of the action: the row is another one, and the
verification accepts it. -/
theorem edit_over_separator_undetected :
    ∃ (s : AppendState) (before after : List StoredRow) (row : StoredRow) (edit : RowEdit),
      Reachable appendStep .init s ∧ s.table = before ++ row :: after ∧
      edit.content row.toAuditContent ≠ row.toAuditContent ∧
      CollisionFree ([row, edit.apply row].filterMap StoredRow.read) ∧
      verifyChain (before ++ edit.apply row :: after) = .ok .valid := by
  refine ⟨_, [], [], singleRow, RowEdit.mk "a" "b|Login" "Auth" (some "") singleRow.timestamp,
    ⟨_, run_singleAppend⟩, rfl, by decide, ?_, ?_⟩
  · decide +kernel
  · decide +kernel

/-! ## Deletions -/

/-- The service reads the hashes of rows that all have one. -/
theorem map_key_read {table : List StoredRow} (h : ∀ row ∈ table, row.hash.isSome) :
    (table.filterMap StoredRow.read).map key = table.map StoredRow.hash := by
  induction table with
  | nil => rfl
  | cons row table ih =>
    rw [List.forall_mem_cons] at h
    obtain ⟨hash, hhash⟩ := Option.isSome_iff_exists.1 h.1
    simp [StoredRow.read, hhash, key, ← ih h.2]

/-- The service reads the previous hashes of rows that all have a hash. -/
theorem map_prev_read {table : List StoredRow} (h : ∀ row ∈ table, row.hash.isSome) :
    (table.filterMap StoredRow.read).map prev = table.map fun row => row.previousHash := by
  induction table with
  | nil => rfl
  | cons row table ih =>
    rw [List.forall_mem_cons] at h
    obtain ⟨hash, hhash⟩ := Option.isSome_iff_exists.1 h.1
    simp [StoredRow.read, hhash, prev, ← ih h.2]

/-- Without collisions, what is left of an appended table is intact exactly when it is a beginning of
the table. -/
theorem Appended.remaining_intact_iff {table : List StoredRow} {n : ℤ} (h : Appended table n)
    (hcf : CollisionFree (table.filterMap StoredRow.read)) {remaining : List StoredRow}
    (hsub : remaining.Sublist table) :
    Intact key prev genesisKey (remaining.filterMap StoredRow.read) ↔ remaining <+: table := by
  have hhashed : ∀ row ∈ remaining, row.hash.isSome := fun row hrow =>
    h.hashed row (hsub.subset hrow)
  have hlinked : Linked StoredRow.hash (fun row => row.previousHash) genesisKey table :=
    h.linear.2.congr (map_key_read h.hashed) (map_prev_read h.hashed)
  -- No hash occurs twice, so a deleted row leaves a hash behind that no row has.
  have hnd : (genesisKey :: table.map StoredRow.hash).Nodup := by
    rw [← map_key_read h.hashed]
    exact h.linear.nodup hcf
  rw [← hlinked.sublist_closed_iff hnd hsub]
  constructor
  · intro hintact
    exact (hintact.congr (map_key_read hhashed) (map_prev_read hhashed)).1
  · intro hclosed
    have hprevs : (remaining.map fun row => row.previousHash).Nodup :=
      (hlinked.intact hnd).2.sublist (hsub.map _)
    exact Intact.congr ⟨hclosed, hprevs⟩ (map_key_read hhashed).symm (map_prev_read hhashed).symm

end AlsaqiBackend.Audit
