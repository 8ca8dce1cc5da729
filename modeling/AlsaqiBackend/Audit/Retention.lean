import AlsaqiBackend.Audit.Tampering

/-!
# Retention of the audit trail

`PartitionManager` of `src/services/PartitionManager.ts` keeps `audit_trail` in monthly partitions and
drops those that end before a cut-off, with the rows in them. Nothing tells `verifyChain`, which
wants every hash that a row names to be there.

The main theorem is `retention_keepsVerifiable_iff`: the verification accepts the rows that are left,
now and after any later appends, exactly when no row that is dropped stands before one that is kept.
As retention drops the oldest rows, that is so only when it drops none of the chain or all of it, or
when the clock went back.

The partitions are dropped under a lock on the whole table, so no transaction of an append has read
it at that moment.
-/

namespace AlsaqiBackend.Audit

open AlsaqiBackend.Lib AuditTrailRow

/-! ## Partitions -/

/-- A partition in the catalog: its name, and its range of timestamps in microseconds. -/
structure Partition where
  name : String
  lower : ℤ
  upper : ℤ
  deriving DecidableEq, Repr

/-- A partition as `listPartitions` reports it. An invalid date is `none`. -/
structure PartitionInfo where
  name : String
  startDate : Option ℤ
  endDate : Option ℤ
  deriving DecidableEq, Repr

/-- A row is stored in the partition whose range has its timestamp. -/
def Partition.contains (p : Partition) (row : StoredRow) : Bool :=
  match row.timestamp with
  | .finite micros => p.lower ≤ micros ∧ micros < p.upper
  | .infinity => false
  | .negInfinity => false

/-- The value of decimal digits. -/
def digitsValue (digits : List Char) : ℤ :=
  digits.foldl (fun n c => 10 * n + (c.toNat - '0'.toNat : ℕ)) 0

/-- `parsePartitionName`: a match of `audit_trail_yYYYYmMM`, as a date. -/
def parsePartitionName (name : String) : Option (Option ℤ) :=
  match name.toList.dropPrefix? "audit_trail_y".toList with
  | some [y1, y2, y3, y4, 'm', m1, m2] =>
    if [y1, y2, y3, y4, m1, m2].all Char.isDigit then
      some (dateUtcMonth (digitsValue [y1, y2, y3, y4]) (digitsValue [m1, m2] - 1))
    else none
  | _ => none

/-- `getPartitionDateRange`. The year and the month are those of the local date. -/
def getPartitionDateRange (zone : TimeZone) (date : Option ℤ) : Option ℤ × Option ℤ :=
  match date with
  | none => (none, none)
  | some t =>
    (dateUtcMonth (getFullYear zone t) (getMonth zone t),
      dateUtcMonth (getFullYear zone t) (getMonth zone t + 1))

/-- `listPartitions` on the partitions of the catalog. -/
def listPartitions (zone : TimeZone) (partitions : List Partition) : List PartitionInfo :=
  partitions.filterMap fun p =>
    (parsePartitionName p.name).map fun date =>
      let (startDate, endDate) := getPartitionDateRange zone date
      ⟨p.name, startDate, endDate⟩

/-- `getPartitionsToDropByRetention`. A comparison with an invalid date is false. -/
def getPartitionsToDropByRetention (zone : TimeZone) (partitions : List PartitionInfo)
    (retentionMonths referenceDate : ℤ) : List PartitionInfo :=
  let cutoffDate := dateUtcMonth (getFullYear zone referenceDate)
    (getMonth zone referenceDate - retentionMonths)
  partitions.filter fun p =>
    match p.endDate, cutoffDate with
    | some endDate, some cutoff => endDate ≤ cutoff
    | _, _ => false

/-- The table, and its partitions. -/
structure Trail where
  partitions : List Partition
  table : List StoredRow
  deriving DecidableEq, Repr

/-- `DROP TABLE` of the partition with that name. -/
def Trail.dropPartition (trail : Trail) (name : String) : Trail where
  partitions := trail.partitions.filter fun p => p.name ≠ name
  table := trail.table.filter fun row => ∀ p ∈ trail.partitions, p.name = name → p.contains row = false

/-- The loop of `dropOldPartitions`, with the names that it returns. A partition whose `DROP TABLE`
fails is left as it is. -/
def dropLoop (fails : String → Bool) : List PartitionInfo → Trail → Trail × List String
  | [], trail => (trail, [])
  | p :: toDrop, trail =>
    if fails p.name then dropLoop fails toDrop trail
    else
      let (rest, dropped) := dropLoop fails toDrop (trail.dropPartition p.name)
      (rest, p.name :: dropped)

/-- `dropOldPartitions` at the time `now`. -/
def dropOldPartitions (zone : TimeZone) (isExternal : Bool) (fails : String → Bool)
    (retentionMonths now : ℤ) (trail : Trail) : Trail × List String :=
  if !isExternal then (trail, [])
  else
    let partitions := listPartitions zone trail.partitions
    let toDrop := getPartitionsToDropByRetention zone partitions retentionMonths now
    dropLoop fails toDrop trail

/-- The retention job on the system of the appends. -/
structure RetentionJob where
  zone : TimeZone
  fails : String → Bool
  retentionMonths : ℤ
  now : ℤ
  partitions : List Partition

/-- The job runs to its end. `DROP TABLE` waits for transactions that have used the table. -/
def RetentionJob.step (job : RetentionJob) (s : AppendState) : Option AppendState :=
  let after := { s with
    table := (dropOldPartitions job.zone true job.fails job.retentionMonths job.now
      ⟨job.partitions, s.table⟩).1.table }
  match s.critical with
  | none => some after
  | some (_, .locked _) => some after
  | _ => none

/-! ## What is dropped -/

/-- The names of the partitions that a job drops. -/
def RetentionJob.droppedNames (job : RetentionJob) : List String :=
  ((getPartitionsToDropByRetention job.zone (listPartitions job.zone job.partitions)
    job.retentionMonths job.now).map PartitionInfo.name).filter fun name => !job.fails name

/-- The row is in a partition that ends by the cut-off and whose `DROP TABLE` does not fail. -/
def RetentionJob.Drops (job : RetentionJob) (row : StoredRow) : Prop :=
  ∃ p ∈ job.partitions, p.name ∈ job.droppedNames ∧ p.contains row = true

instance (job : RetentionJob) (row : StoredRow) : Decidable (job.Drops row) :=
  inferInstanceAs (Decidable (∃ p ∈ job.partitions, _))

/-- The loop drops the rows of the partitions that it is given, but for those whose `DROP TABLE`
fails. -/
theorem dropLoop_table (fails : String → Bool) (toDrop : List PartitionInfo) (trail : Trail) :
    (dropLoop fails toDrop trail).1.table = trail.table.filter fun row =>
      ∀ p ∈ trail.partitions, p.name ∈ (toDrop.map PartitionInfo.name).filter (fun n => !fails n) →
        p.contains row = false := by
  induction toDrop generalizing trail with
  | nil => simp [dropLoop]
  | cons q toDrop ih =>
    unfold dropLoop
    by_cases hq : fails q.name = true
    · rw [if_pos hq, ih]
      simp [hq]
    · rw [if_neg hq, ih, Trail.dropPartition, List.filter_filter]
      refine List.filter_congr fun row _ => ?_
      -- A partition goes with the first drop of its name.
      simp only [Bool.not_eq_true] at hq
      simp only [List.mem_filter, List.map_cons, List.filter_cons, hq, Bool.not_false, if_true,
        List.mem_cons, decide_eq_true_eq, ← Bool.decide_and, decide_eq_decide]
      constructor
      · rintro ⟨hrest, hfirst⟩ p hp hname
        by_cases hpq : p.name = q.name
        · exact hfirst p hp hpq
        · exact hrest p ⟨hp, hpq⟩ (hname.resolve_left hpq)
      · intro h
        exact ⟨fun p hp hname => h p hp.1 (Or.inr hname), fun p hp hname => h p hp (Or.inl hname)⟩

/-- A job leaves the rows that it does not drop, and nothing else of the appends changes. -/
theorem RetentionJob.step_eq (job : RetentionJob) {s t : AppendState} (h : job.step s = some t) :
    t = { s with table := s.table.filter fun row => ¬ job.Drops row } ∧
      ∀ c ∈ s.critical, ∃ entry, c.2 = .locked entry := by
  have htable : (dropOldPartitions job.zone true job.fails job.retentionMonths job.now
      ⟨job.partitions, s.table⟩).1.table = s.table.filter fun row => ¬ job.Drops row := by
    rw [dropOldPartitions, if_neg (by simp), dropLoop_table]
    refine List.filter_congr fun row _ => ?_
    simp [Drops, droppedNames]
  unfold step at h
  rw [htable] at h
  split at h
  next hc => exact ⟨(Option.some.inj h).symm, by simp [hc]⟩
  next entry hc => exact ⟨(Option.some.inj h).symm, by simp [hc]⟩
  next => exact absurd h (by simp)

/-- What is left of a list is a beginning of it exactly when nothing that is left stands behind
something that is not. -/
theorem filter_prefix_iff {α : Type*} (p : α → Bool) (l : List α) :
    l.filter p <+: l ↔ l.Pairwise fun a b => p b = true → p a = true := by
  induction l with
  | nil => simp
  | cons a l ih =>
    rw [List.pairwise_cons]
    cases hp : p a with
    | true => simp [hp, ih]
    | false =>
      rw [List.filter_cons_of_neg (by simp [hp])]
      constructor
      · intro h
        -- Its first item would be `a`, which is not left.
        have hnil : l.filter p = [] := by
          cases hl : l.filter p with
          | nil => rfl
          | cons b m =>
            rw [hl, List.cons_prefix_cons] at h
            have hb : p b = true := (List.mem_filter.1 (hl ▸ List.mem_cons_self : b ∈ l.filter p)).2
            rw [h.1, hp] at hb
            exact absurd hb (by simp)
        rw [List.filter_eq_nil_iff] at hnil
        refine ⟨fun b hb hpb => absurd hpb (hnil b hb), ?_⟩
        exact List.pairwise_iff_forall_sublist.2 fun hsub hpb =>
          absurd hpb (hnil _ (hsub.subset (by simp)))
      · rintro ⟨h, -⟩
        have hnil : l.filter p = [] :=
          List.filter_eq_nil_iff.2 fun b hb hpb => absurd (h b hb hpb) (by simp)
        rw [hnil]
        exact List.nil_prefix

/-! ## What is left -/

/-- The verification accepts the table, now and after any later appends, as long as they do not meet
a collision. -/
def KeepsVerifiable (s : AppendState) : Prop :=
  ∀ t, Reachable appendStep s t → CollisionFree (selectChain t.table) →
    verifyChain t.table = .ok .valid

/-- Rows of collision-free rows are collision-free. -/
theorem CollisionFree.sublist {rows rows' : List AuditTrailRow} (h : CollisionFree rows)
    (hsub : rows'.Sublist rows) : CollisionFree rows' :=
  fun a ha b hb => h a (hsub.subset ha) b (hsub.subset hb)

/-- A beginning of an appended table is an appended table. -/
theorem Appended.beginning {table remaining : List StoredRow} {n : ℤ} (h : Appended table n)
    (hbegin : remaining <+: table) : Appended remaining n := by
  obtain ⟨rest, rfl⟩ := hbegin
  refine ⟨?_, ?_, ?_, ?_, ?_⟩
  · exact fun row hrow => h.hashed row (List.mem_append_left _ hrow)
  · exact (List.pairwise_append.1 h.increasing).1
  · exact fun row hrow => h.below row (List.mem_append_left _ hrow)
  · intro row hrow
    refine h.linear.1 row ?_
    rw [List.filterMap_append]
    exact List.mem_append_left _ hrow
  · have hlinked := h.linear.2
    rw [List.filterMap_append, linked_append] at hlinked
    exact hlinked.1

/-- Without collisions, a retention job leaves a table that the verification accepts, now and after
any later appends, exactly when no row that it drops stands before one that it keeps. -/
theorem retention_keepsVerifiable_iff {s t : AppendState} (h : Reachable appendStep .init s)
    (hcf : CollisionFree (selectChain s.table)) (job : RetentionJob) (hst : job.step s = some t) :
    KeepsVerifiable t ↔ s.table.Pairwise fun a b => job.Drops a → job.Drops b := by
  have happended := appended_of_reachable h
  obtain ⟨rfl, hcritical⟩ := job.step_eq hst
  have hsub : (s.table.filter fun row => ¬ job.Drops row).Sublist s.table := List.filter_sublist
  have hbegin : (s.table.filter fun row => ¬ job.Drops row) <+: s.table ↔
      s.table.Pairwise fun a b => job.Drops a → job.Drops b := by
    rw [filter_prefix_iff]
    refine ⟨List.Pairwise.imp ?_, List.Pairwise.imp ?_⟩
    · intro a b hab
      simpa using fun hb => mt hab (by simpa using hb)
    · intro a b hab
      simpa using mt hab
  rw [← hbegin]
  constructor
  · intro hkeeps
    have hcf' : CollisionFree (selectChain (s.table.filter fun row => ¬ job.Drops row)) := by
      rw [selectChain_of_increasing (happended.increasing.sublist hsub)]
      rw [selectChain_of_increasing happended.increasing] at hcf
      exact hcf.sublist (hsub.filterMap _)
    have hvalid := hkeeps _ ⟨[], rfl⟩ hcf'
    rw [verifyChain, selectChain_of_increasing (happended.increasing.sublist hsub),
      verifyRows_eq_valid_iff] at hvalid
    rw [selectChain_of_increasing happended.increasing] at hcf
    exact (happended.remaining_intact_iff hcf hsub).1 hvalid.2
  · intro hpre u hu hcfu
    -- What is left is an appended table again, so later appends keep it one.
    have hinv : AppendState.Inv { s with table := s.table.filter fun row => ¬ job.Drops row } := by
      refine ⟨happended.beginning hpre, fun c hc => ?_⟩
      obtain ⟨entry, hentry⟩ := hcritical c hc
      rw [hentry]
      trivial
    exact (hu.invariant appendStep_inv hinv).1.verifyChain_eq hcfu

/-- An entry of January 2022 and one of June 2024. -/
def yearsApart : List AppendAction :=
  [.call 1 ⟨"a", "Login", "Auth", ""⟩, .lock 1, .readTail 1641340800000, .insert "x", .commit,
    .call 2 ⟨"a", "Login", "Auth", ""⟩, .lock 2, .readTail 1718409600000, .insert "y", .commit]

/-- The job in the middle of June 2024, in UTC, with the partitions of the two entries. -/
def juneJob (retentionMonths : ℤ) : RetentionJob where
  zone := fun _ => 0
  fails := fun _ => false
  retentionMonths := retentionMonths
  now := 1718409600000
  partitions := [⟨"audit_trail_y2022m01", 1640995200000000, 1643673600000000⟩,
    ⟨"audit_trail_y2024m06", 1717200000000000, 1719792000000000⟩]

/-- The two entries, and what each retention leaves of them. -/
theorem run_yearsApart : ∃ s ∈ run appendStep .init yearsApart, CollisionFree (selectChain s.table) ∧
    ((s.table.Pairwise fun a b => (juneJob 36).Drops a → (juneJob 36).Drops b) ∧
      ∃ t ∈ (juneJob 36).step s, t.table.length = 2) ∧
    ∃ t ∈ (juneJob 24).step s, CollisionFree (selectChain t.table) ∧
      verifyChain t.table = .ok (.invalid "y" .gap) := by
  decide +kernel

/-- A retention of three years keeps both entries, and the trail verifiable. -/
theorem retention_of_three_years_keepsVerifiable :
    ∃ s t, run appendStep .init yearsApart = some s ∧ (juneJob 36).step s = some t ∧
      t.table.length = 2 ∧ KeepsVerifiable t := by
  obtain ⟨s, hs, hcf, ⟨hdrops, t, ht, hlen⟩, -⟩ := run_yearsApart
  exact ⟨s, t, hs, ht, hlen, (retention_keepsVerifiable_iff ⟨_, hs⟩ hcf (juneJob 36) ht).2 hdrops⟩

/-- The default retention of two years drops the first entry, and the verification reports the second
as a gap. -/
theorem retention_of_two_years_breaks_chain :
    ∃ s t, Reachable appendStep .init s ∧ CollisionFree (selectChain s.table) ∧
      (juneJob 24).step s = some t ∧ CollisionFree (selectChain t.table) ∧
      verifyChain t.table = .ok (.invalid "y" .gap) ∧ ¬ KeepsVerifiable t := by
  obtain ⟨s, hs, hcf, -, t, ht, hcf', hgap⟩ := run_yearsApart
  refine ⟨s, t, ⟨_, hs⟩, hcf, ht, hcf', hgap, fun hkeeps => ?_⟩
  have hvalid := hkeeps t ⟨[], rfl⟩ hcf'
  rw [hgap] at hvalid
  exact absurd hvalid (by decide)

end AlsaqiBackend.Audit
