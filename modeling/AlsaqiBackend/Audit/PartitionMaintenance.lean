import AlsaqiBackend.Audit.PartitionCoverage
import AlsaqiBackend.Lib.Run

/-!
# Maintenance of the partitions

At midnight of the first day of a month, in local time, `ensureFuturePartitions` makes partitions for the
months from the current one on, and `dropOldPartitions` drops those that the retention has passed. Between
creation and removal the range of a partition is taken from its name.

At UTC the job drops nothing that is recent, and every moment has a partition even if two jobs in a row are
missed. East of UTC the job fires in the last hours of the month before, and drops a month too much. West of
UTC the job names a partition after the month before the one that it covers, and so do the partitions that it
starts from: months are left out (`maintained_iff`).
-/

namespace AlsaqiBackend.Audit

open AlsaqiBackend.Lib

/-! ## The job -/

/-- `createPartition`: the name is that of the start of the range. -/
def createPartition (zone : TimeZone) (partitions : List Partition) (startDate endDate : Option ℤ) :
    Except PartitionError (List Partition) :=
  createTable partitions (getPartitionName zone startDate) startDate endDate

/-- The loop of `ensureFuturePartitions`, and whether it has come to its end without an error. -/
def ensureLoop (zone : TimeZone) : List (Option ℤ) → List Partition → List Partition × Bool
  | [], partitions => (partitions, true)
  | partDate :: dates, partitions =>
    let (startDate, endDate) := getPartitionDateRange zone partDate
    match createPartition zone partitions startDate endDate with
    | .error _ => (partitions, false)
    | .ok created => ensureLoop zone dates created

def ensureFuturePartitions (zone : TimeZone) (now : ℤ) (partitions : List Partition) : List Partition × Bool :=
  ensureLoop zone ((List.range (autoCreateFuture + 1)).map fun (i : ℕ) => addMonths zone (some now) i) partitions

/-- The scheduled job: an error of the first part is logged, and there is no second part then. -/
def maintain (zone : TimeZone) (fails : String → Bool) (retentionMonths now : ℤ) (trail : Trail) : Trail :=
  let (partitions, ensured) := ensureFuturePartitions zone now trail.partitions
  let trail := { trail with partitions := partitions }
  if ensured then (dropOldPartitions zone true fails retentionMonths now trail).1 else trail

/-! ## Runs -/

/-- The trail, the current time, the month at whose local beginning the job fires next, and how many jobs in a
row have been missed. -/
structure MaintenanceState where
  trail : Trail
  now : ℤ
  next : ℤ
  missed : ℕ

inductive MaintenanceAction where
  /-- The time passes. -/
  | pass (t : ℤ)
  /-- A row with the current time is written. -/
  | write (row : StoredRow)
  | job (fails : String → Bool)
  | miss

/-- The time at which the job of a month fires: local midnight of the first day. -/
def UtcOffset.jobTime (o : UtcOffset) (m : ℤ) : ℤ := monthStart m - o.ms

/-- The clock shows a year of four digits, from 2000 on. -/
def clockStart : ℤ := monthStart (12 * 2000)

def clockEnd : ℤ := monthStart (12 * 9999)

/-- The timestamp is one of the current millisecond. -/
def atNow (now : ℤ) : Timestamptz → Bool
  | .finite micros => micros / 1000 = now
  | _ => false

def maintenanceStep (o : UtcOffset) (retentionMonths : ℕ) (s : MaintenanceState) :
    MaintenanceAction → Option MaintenanceState
  | .pass t =>
    if s.now ≤ t ∧ t ≤ o.jobTime s.next ∧ t < clockEnd then some { s with now := t } else none
  | .write row =>
    if atNow s.now row.timestamp ∧ s.trail.partitions.any (·.contains row) then
      some { s with trail := { s.trail with table := s.trail.table ++ [row] } }
    else none
  | .job fails =>
    if s.now = o.jobTime s.next then
      some
        { s with
          trail := maintain o.zone fails retentionMonths s.now s.trail
          next := s.next + 1
          missed := 0 }
    else none
  | .miss =>
    -- At most two jobs in a row are missed.
    if s.now = o.jobTime s.next ∧ s.missed < 2 then some { s with next := s.next + 1, missed := s.missed + 1 }
    else none

/-- The table has just been partitioned, with the rows that it had. -/
inductive Starts (o : UtcOffset) : MaintenanceState → Prop
  | intro {now : ℤ} {toDate : ℤ → Option ℤ} {rows : List ℤ} {fuel : ℕ} {trail : Trail}
      (h : initializePartitioning o.zone now toDate rows fuel = some (.ok trail.partitions))
      (hrows : trail.table.map (·.timestamp) = rows.map .finite)
      (hclock : clockStart ≤ now ∧ now < clockEnd) :
      Starts o ⟨trail, now, monthOf (now + o.ms) + 1, 0⟩

/-- A row with the current time has a partition to go to. -/
def HasPartition (s : MaintenanceState) : Prop :=
  ∀ w, w / 1000 = s.now → ∃ p ∈ s.trail.partitions, p.Takes w

/-- The job does not drop a partition with a row that is later than the first day of the month so many months
before. -/
def KeepsRecent (o : UtcOffset) (retentionMonths : ℕ) (s : MaintenanceState) : MaintenanceAction → Prop
  | .job fails =>
    ∀ p ∈ s.trail.partitions, p ∉ (maintain o.zone fails retentionMonths s.now s.trail).partitions →
      ∀ row ∈ s.trail.table, p.contains row = true →
        ∀ w, row.timestamp = .finite w → w ≤ 1000 * monthStart (monthOf s.now - retentionMonths)
  | _ => True

/-- What maintenance is for, along a run. -/
def Maintained (o : UtcOffset) (retentionMonths : ℕ) (s : MaintenanceState) (actions : List MaintenanceAction) :
    Prop :=
  Along (maintenanceStep o retentionMonths) HasPartition s actions ∧
    Guarded (maintenanceStep o retentionMonths) (KeepsRecent o retentionMonths) s actions

variable {zone : TimeZone} {o : UtcOffset} {s t : MaintenanceState} {n : ℕ} {partitions : List Partition} {m now : ℤ}

/-! ## What is dropped -/

theorem dropLoop_partitions {fails : String → Bool} {toDrop : List PartitionInfo} {trail : Trail} {p : Partition} :
    p ∈ (dropLoop fails toDrop trail).1.partitions ↔
      p ∈ trail.partitions ∧ ∀ q ∈ toDrop, fails q.name = false → p.name ≠ q.name := by
  induction toDrop generalizing trail with
  | nil => simp [dropLoop]
  | cons q toDrop ih =>
    unfold dropLoop
    by_cases hq : fails q.name = true
    · rw [if_pos hq, ih, List.forall_mem_cons]
      simp [hq]
    · rw [if_neg hq]
      dsimp only
      rw [ih, List.forall_mem_cons, Trail.dropPartition]
      simp only [List.mem_filter, decide_eq_true_eq]
      rw [and_assoc]
      refine and_congr_right fun _ => and_congr_left fun _ => ?_
      exact ⟨fun hne _ => hne, fun h => h (Bool.eq_false_iff.2 hq)⟩

/-- A partition goes exactly when its name is that of a range which ends by the cut-off. -/
theorem mem_toDrop {q : PartitionInfo} {referenceDate : ℤ} :
    q ∈ getPartitionsToDropByRetention zone (listPartitions zone partitions) n referenceDate ↔
      ∃ p ∈ partitions, ∃ date, parsePartitionName p.name = some date ∧
        q = ⟨p.name, (getPartitionDateRange zone date).1, (getPartitionDateRange zone date).2⟩ ∧
          ∃ endDate cutoff, (getPartitionDateRange zone date).2 = some endDate ∧
            addMonths zone (some referenceDate) (-n) = some cutoff ∧ endDate ≤ cutoff := by
  unfold getPartitionsToDropByRetention listPartitions addMonths
  rw [List.mem_filter, Option.bind_some]
  constructor
  · rintro ⟨hq, hend⟩
    obtain ⟨p, hp, hmap⟩ := List.mem_filterMap.1 hq
    obtain ⟨date, hparse, rfl⟩ := Option.map_eq_some_iff.1 hmap
    refine ⟨p, hp, date, hparse, rfl, ?_⟩
    dsimp only at hend
    split at hend
    next endDate cutoff hend' hcutoff =>
      exact ⟨endDate, cutoff, hend', hcutoff, of_decide_eq_true hend⟩
    next => cases hend
  · rintro ⟨p, hp, date, hparse, rfl, endDate, cutoff, hend, hcutoff, hle⟩
    refine ⟨List.mem_filterMap.2 ⟨p, hp, by rw [hparse]; rfl⟩, ?_⟩
    dsimp only
    rw [hend]
    have hcutoff' : dateUtcMonth (getFullYear zone referenceDate) (getMonth zone referenceDate - n) =
        some cutoff := hcutoff
    rw [hcutoff']
    exact decide_eq_true hle

/-! ## At UTC -/

/-- At UTC, names that are recognized are those of the months that they cover; the months from one to another
are there, and nothing is there after them. -/
structure Ensured (first bound : ℤ) (partitions : List Partition) : Prop where
  named : ∀ p ∈ partitions, ∀ d, parsePartitionName p.name = some d → ∃ m, FourDigit m ∧ p = monthPartition m
  covered : ∀ m, first ≤ m → m < bound → monthPartition m ∈ partitions
  free : ∀ p ∈ partitions, p.upper ≤ 1000 * monthStart bound

/-- Between the jobs, at UTC, the months from the current one to the third after that of the last job are
there. -/
structure MaintenanceState.Inv (s : MaintenanceState) : Prop where
  ensured : Ensured (monthOf s.now) (s.next + 3 - s.missed) s.trail.partitions
  before : s.now ≤ monthStart s.next
  missed : s.missed ≤ 2
  clock : 24000 ≤ s.next ∧ s.now < clockEnd

/-- Every moment has a partition. -/
theorem MaintenanceState.Inv.hasPartition (h : s.Inv) : HasPartition s := by
  intro w hw
  have hmonth : monthOf s.now ≤ s.next := by
    have hnext : s.now < monthStart (s.next + 1) :=
      lt_of_le_of_lt h.before (monthStart_lt_monthStart_iff.2 (by omega))
    have hlt := lt_monthStart_iff.1 hnext
    omega
  have hmissed := h.missed
  refine ⟨monthPartition (monthOf s.now), h.ensured.covered _ le_rfl (by omega), ?_⟩
  rw [monthPartition_takes_iff, hw]

/-- One round of the loop for a month that is the next one at the latest. -/
theorem Ensured.createTable {first bound : ℤ} (h : Ensured first bound partitions) (hfirst : first ≤ m)
    (hm : m ≤ bound) (hfour : FourDigit m) :
    ∃ created, createTable partitions (monthPartition m).name (some (monthStart m)) (some (monthStart (m + 1))) =
        .ok created ∧ Ensured first (max bound (m + 1)) created ∧ partitions ⊆ created ∧
          ∀ p ∈ created, p ∈ partitions ∨ ∃ k, FourDigit k ∧ p = monthPartition k := by
  unfold Audit.createTable
  dsimp only
  by_cases hthere : m < bound
  · have hexists : partitions.any (·.name = (monthPartition m).name) = true :=
      List.any_eq_true.2 ⟨_, h.covered m hfirst hthere, decide_eq_true rfl⟩
    rw [if_pos hexists, max_eq_left (by omega)]
    exact ⟨partitions, rfl, h, List.Subset.refl _, fun _ => .inl⟩
  · obtain rfl : m = bound := by omega
    have hlt : monthStart m < monthStart (m + 1) := monthStart_lt_monthStart_iff.2 (by omega)
    have hname : ¬partitions.any (·.name = (monthPartition m).name) = true := by
      intro hany
      obtain ⟨p, hp, hname⟩ := List.any_eq_true.1 hany
      have hparse := parsePartitionName_monthPartition hfour
      rw [← of_decide_eq_true hname] at hparse
      obtain ⟨k, hk, rfl⟩ := h.named p hp _ hparse
      obtain rfl := (monthPartition_name_inj hk hfour).1 (of_decide_eq_true hname)
      have hupper : 1000 * monthStart (k + 1) ≤ 1000 * monthStart k := h.free _ hp
      omega
    have hoverlap : ¬(partitions.any fun p =>
        p.lower < 1000 * monthStart (m + 1) ∧ 1000 * monthStart m < p.upper) = true := by
      intro hany
      obtain ⟨p, hp, hover⟩ := List.any_eq_true.1 hany
      have hupper := h.free p hp
      have hlower := (of_decide_eq_true hover).2
      omega
    rw [if_neg hname, if_neg (by omega), if_neg hoverlap, max_eq_right (by omega)]
    have hnew : ∀ p ∈ partitions ++ [monthPartition m], p ∈ partitions ∨ ∃ k, FourDigit k ∧ p = monthPartition k :=
      fun p hp => (List.mem_append.1 hp).imp_right fun hp' => ⟨m, hfour, List.mem_singleton.1 hp'⟩
    refine ⟨_, rfl, ⟨fun p hp d hd => ?_, fun k hk hk' => ?_, fun p hp => ?_⟩, List.subset_append_left _ _, hnew⟩
    · rcases List.mem_append.1 hp with hold | hnew
      · exact h.named p hold d hd
      · exact ⟨m, hfour, List.mem_singleton.1 hnew⟩
    · by_cases hlast : k < m
      · exact List.mem_append_left _ (h.covered k hk hlast)
      · obtain rfl : k = m := by omega
        exact List.mem_append_right _ (List.mem_singleton_self _)
    · rcases List.mem_append.1 hp with hold | hnew
      · have hupper := h.free p hold
        omega
      · rw [List.mem_singleton.1 hnew]

/-- The loop over the months from one on, where the range of a month's first moment is this month. -/
theorem Ensured.ensureLoop {first bound : ℤ} (h : Ensured first bound partitions) (heast : 0 ≤ o.ms) (count : ℕ)
    {from' : ℤ} (hfirst : first ≤ from') (hfrom : from' ≤ bound)
    (hfour : ∀ m, from' ≤ m → m < from' + count → FourDigit m) :
    ∃ created, Audit.ensureLoop o.zone ((List.range count).map fun (i : ℕ) => some (monthStart (from' + i)))
        partitions = (created, true) ∧ Ensured first (max bound (from' + count)) created ∧
          partitions ⊆ created ∧ ∀ p ∈ created, p ∈ partitions ∨ ∃ k, FourDigit k ∧ p = monthPartition k := by
  induction count generalizing partitions bound from' with
  | zero =>
    rw [Nat.cast_zero, Int.add_zero, max_eq_left hfrom]
    exact ⟨partitions, rfl, h, List.Subset.refl _, fun _ => .inl⟩
  | succ count ih =>
    have hm : FourDigit from' := hfour from' le_rfl (by omega)
    have hlocal : monthOf (monthStart from' + o.ms) = from' := o.monthOf_east heast from'
    obtain ⟨between, hround, hensured, hsub, hnew⟩ := h.createTable hfirst hfrom hm
    have hfirst' : first ≤ from' + 1 := by omega
    obtain ⟨created, hrest, hensured', hsub', hnew'⟩ := ih hensured hfirst' (by omega)
      fun m hlower hupper => hfour m (by omega) (by omega)
    refine ⟨created, ?_, ?_, fun p hp => hsub' (hsub hp), fun p hp => (hnew' p hp).elim (hnew p) .inr⟩
    · have hrange := getPartitionDateRange_eq o.zone (t := monthStart from') (by rw [o.zone_apply, hlocal]; exact hm)
      have hname := getPartitionName_eq o.zone (monthStart from')
      rw [o.zone_apply, hlocal] at hrange hname
      rw [List.range_succ_eq_map, List.map_cons, List.map_map, Nat.cast_zero, Int.add_zero, Audit.ensureLoop,
        hrange]
      unfold createPartition
      dsimp only
      rw [hname, hround]
      dsimp only
      rw [← hrest]
      congr 1
      refine List.map_congr_left fun i _ => ?_
      show some (monthStart (from' + ((i + 1 : ℕ) : ℤ))) = _
      rw [Nat.cast_add, Nat.cast_one]
      congr 2
      omega
    · rw [max_assoc, max_eq_right (by omega : from' + 1 ≤ from' + 1 + (count : ℤ))] at hensured'
      rwa [Nat.cast_add, Nat.cast_one, show from' + ((count : ℤ) + 1) = from' + 1 + count by omega]

/-- What the job leaves at UTC: the partitions of the months that retention has not passed, and of the ones that
follow. -/
theorem MaintenanceState.Inv.maintain (h : s.Inv) (hutc : o.ms = 0) (hnow : s.now = monthStart s.next)
    (fails : String → Bool) :
    Ensured s.next (s.next + 4) (maintain o.zone fails n s.now s.trail).partitions ∧
      ∀ p ∈ s.trail.partitions, p ∉ (maintain o.zone fails n s.now s.trail).partitions →
        ∃ m, p = monthPartition m ∧ m + 1 ≤ s.next - n := by
  have hmonth : monthOf s.now = s.next := by rw [hnow, monthOf_monthStart]
  have hlocal : monthOf (s.now + o.ms) = s.next := by rw [hutc, Int.add_zero, hmonth]
  obtain ⟨hclock, hclock'⟩ := h.clock
  have hmissed := h.missed
  have hlast : s.next < 12 * 9999 := by
    rw [hnow] at hclock'
    exact monthStart_lt_monthStart_iff.1 hclock'
  have hbefore := h.ensured
  rw [hmonth] at hbefore
  have heast : 0 ≤ o.ms := by omega
  -- The four months of the job are there after its first part.
  obtain ⟨created, hcreated, hensured, hsub, -⟩ :=
    hbefore.ensureLoop heast (autoCreateFuture + 1) le_rfl (by omega) fun m hlower hupper => by
      have hupper' : m < s.next + 4 := hupper
      unfold FourDigit
      omega
  have hbound : max (s.next + 3 - (s.missed : ℤ)) (s.next + (autoCreateFuture + 1 : ℕ)) = s.next + 4 := by
    show max (s.next + 3 - (s.missed : ℤ)) (s.next + 4) = s.next + 4
    omega
  rw [hbound] at hensured
  have hfuture : ensureFuturePartitions o.zone s.now s.trail.partitions = (created, true) := by
    unfold ensureFuturePartitions
    rw [← hcreated]
    congr 1
    refine List.map_congr_left fun i hi => ?_
    have hi' : i < 4 := List.mem_range.1 hi
    rw [addMonths_eq (by omega) (by omega) (by omega), hlocal]
  have hcutoff : ∀ cutoff, addMonths o.zone (some s.now) (-n) = some cutoff →
      cutoff = monthStart (s.next - n) := by
    intro cutoff hadd
    unfold addMonths at hadd
    rw [Option.bind_some, getFullYear_eq, getMonth_eq, o.zone_apply, hlocal, dateUtcMonth_eq (by omega),
      show 12 * (s.next / 12) + (s.next % 12 + -(n : ℤ)) = s.next - n by omega] at hadd
    unfold timeClip at hadd
    split_ifs at hadd
    exact (Option.some.inj hadd).symm
  have hdropped : ∀ p ∈ created, p ∉ (Audit.maintain o.zone fails n s.now s.trail).partitions →
      ∃ m, FourDigit m ∧ p = monthPartition m ∧ m + 1 ≤ s.next - n := by
    intro p hp hgone
    unfold Audit.maintain at hgone
    rw [hfuture] at hgone
    simp only [if_true, dropOldPartitions, Bool.not_true, Bool.false_eq_true, if_false] at hgone
    rw [dropLoop_partitions, and_iff_right hp] at hgone
    obtain ⟨q, hgone⟩ := not_forall.1 hgone
    obtain ⟨hq, hgone⟩ := Classical.not_imp.1 hgone
    obtain ⟨-, hname⟩ := Classical.not_imp.1 hgone
    obtain ⟨p', hp', date, hparse, rfl, endDate, cutoff, hend, hadd, hle⟩ := mem_toDrop.1 hq
    have hname' : p.name = p'.name := not_not.1 hname
    rw [← hname'] at hparse
    obtain ⟨m, hfour, rfl⟩ := hensured.named p hp date hparse
    rw [parsePartitionName_monthPartition hfour] at hparse
    obtain rfl := Option.some.inj hparse
    have hlocal' : monthOf (monthStart m + o.ms) = m := o.monthOf_east (by omega) m
    have hrange := getPartitionDateRange_eq o.zone (t := monthStart m) (by rw [o.zone_apply, hlocal']; exact hfour)
    rw [o.zone_apply, hlocal'] at hrange
    rw [hrange] at hend
    rw [← Option.some.inj hend, hcutoff cutoff hadd, monthStart_le_monthStart_iff] at hle
    exact ⟨m, hfour, rfl, hle⟩
  have hkept : ∀ p ∈ (Audit.maintain o.zone fails n s.now s.trail).partitions, p ∈ created := by
    intro p hp
    unfold Audit.maintain at hp
    rw [hfuture] at hp
    simp only [if_true, dropOldPartitions, Bool.not_true, Bool.false_eq_true, if_false] at hp
    exact (dropLoop_partitions.1 hp).1
  refine ⟨⟨fun p hp => hensured.named p (hkept p hp), fun m hlower hupper => ?_,
    fun p hp => hensured.free p (hkept p hp)⟩, fun p hp hgone => ?_⟩
  · by_contra hgone
    obtain ⟨k, hk, heq, hle⟩ := hdropped _ (hensured.covered m hlower hupper) hgone
    have hfour : FourDigit m := by
      unfold FourDigit
      omega
    obtain rfl := (monthPartition_name_inj hfour hk).1 (by rw [heq])
    omega
  · obtain ⟨k, -, heq, hle⟩ := hdropped p (hsub hp) hgone
    exact ⟨k, heq, hle⟩

/-- At UTC no job drops what is recent. -/
theorem MaintenanceState.Inv.keepsRecent (h : s.Inv) (hutc : o.ms = 0) {a : MaintenanceAction}
    (hst : maintenanceStep o n s a = some t) : KeepsRecent o n s a := by
  cases a with
  | pass u => trivial
  | write row => trivial
  | miss => trivial
  | job fails =>
    unfold maintenanceStep at hst
    dsimp only at hst
    split_ifs at hst with hfires
    have hnow : s.now = monthStart s.next := by
      rw [hfires]
      unfold UtcOffset.jobTime
      omega
    intro p hp hgone row _ hcontains w hw
    obtain ⟨m, rfl, hle⟩ := (h.maintain hutc hnow fails).2 p hp hgone
    unfold Partition.contains at hcontains
    rw [hw] at hcontains
    have hupper : w < 1000 * monthStart (m + 1) := (of_decide_eq_true hcontains).2
    have hmonth : monthOf s.now = s.next := by rw [hnow, monthOf_monthStart]
    have hmono : monthStart (m + 1) ≤ monthStart (s.next - n) := monthStart_le_monthStart_iff.2 hle
    rw [hmonth]
    omega

/-- At UTC every step keeps what holds between the jobs. -/
theorem MaintenanceState.Inv.step (h : s.Inv) (hutc : o.ms = 0) {a : MaintenanceAction}
    (hst : maintenanceStep o n s a = some t) : t.Inv := by
  have hjob : o.jobTime s.next = monthStart s.next := by
    unfold UtcOffset.jobTime
    omega
  unfold maintenanceStep at hst
  cases a with
  | pass u =>
    dsimp only at hst
    split_ifs at hst with hpass
    obtain rfl := Option.some.inj hst
    obtain ⟨hle, hbefore, hend⟩ := hpass
    have hmono : monthOf s.now ≤ monthOf u := monthOf_mono hle
    exact ⟨⟨h.ensured.named, fun m hlower => h.ensured.covered m (hmono.trans hlower), h.ensured.free⟩,
      hjob ▸ hbefore, h.missed, h.clock.1, hend⟩
  | write row =>
    dsimp only at hst
    split_ifs at hst
    obtain rfl := Option.some.inj hst
    exact ⟨h.ensured, h.before, h.missed, h.clock⟩
  | job fails =>
    dsimp only at hst
    split_ifs at hst with hfires
    obtain rfl := Option.some.inj hst
    have hnow : s.now = monthStart s.next := hfires.trans hjob
    have hmonth : monthOf s.now = s.next := by rw [hnow, monthOf_monthStart]
    have hmaintained := (h.maintain (n := n) hutc hnow fails).1
    have hlater : monthStart s.next ≤ monthStart (s.next + 1) := monthStart_le_monthStart_iff.2 (by omega)
    refine ⟨?_, by dsimp only; omega, Nat.zero_le 2, by have := h.clock.1; dsimp only; omega, h.clock.2⟩
    dsimp only
    rw [hmonth, show s.next + 1 + 3 - ((0 : ℕ) : ℤ) = s.next + 4 by omega]
    exact hmaintained
  | miss =>
    dsimp only at hst
    split_ifs at hst with hmiss
    obtain rfl := Option.some.inj hst
    obtain ⟨hfires, htwo⟩ := hmiss
    have hlater : monthStart s.next ≤ monthStart (s.next + 1) := monthStart_le_monthStart_iff.2 (by omega)
    have hbound : s.next + 1 + 3 - ((s.missed + 1 : ℕ) : ℤ) = s.next + 3 - s.missed := by omega
    refine ⟨?_, by dsimp only; omega, by dsimp only; omega, by have := h.clock.1; dsimp only; omega, h.clock.2⟩
    dsimp only
    rw [hbound]
    exact h.ensured

/-- At UTC a table that has just been partitioned is as between the jobs. -/
theorem Starts.inv (h : Starts o s) (hutc : o.ms = 0) : s.Inv := by
  cases h with
  | @intro now toDate rows fuel trail hend _ hclock =>
    have hlocal : ∀ m, monthOf (monthStart m + o.ms) = m := o.monthOf_east (by omega)
    obtain ⟨current, hcurrent⟩ : ∃ current, monthOf now = current := ⟨_, rfl⟩
    have hcurrent' : monthOf (now + o.ms) = current := by rw [hutc, Int.add_zero, hcurrent]
    have hyear : 24000 ≤ current ∧ current < 119988 := by
      obtain ⟨hfirst, hlast⟩ := hclock
      rw [← hcurrent]
      exact ⟨monthStart_le_iff.1 hfirst, lt_monthStart_iff.1 hlast⟩
    have hdate : ∀ i : ℤ, -1 ≤ i → i ≤ 3 → addMonths o.zone (some now) i = some (monthStart (current + i)) := by
      intro i hlower hupper
      rw [addMonths_eq (by omega) (by omega) (by omega), hcurrent']
    obtain ⟨hcreated, hdates, -⟩ := created_of_initializePartitioning hend
    have hnamed : ∀ p ∈ trail.partitions, ∀ d, parsePartitionName p.name = some d →
        ∃ m, FourDigit m ∧ p = monthPartition m := by
      intro p hp d hparse
      obtain ⟨t, -, hat⟩ := hcreated p hp
      exact ⟨_, hat.eq_monthPartition hparse⟩
    have hnow : now < monthStart (current + 1) := lt_monthStart_iff.2 (by omega)
    refine ⟨⟨hnamed, fun m hlower hupper => ?_, fun p hp => ?_⟩, ?_, Nat.zero_le 2, ?_, hclock.2⟩
    · dsimp only at hlower hupper ⊢
      rw [hcurrent] at hlower
      rw [hcurrent'] at hupper
      have hfour : FourDigit m := by
        unfold FourDigit
        omega
      obtain ⟨t, ht, p, hp, hname⟩ := hdates (m - current + 1).toNat (by omega)
      rw [show (((m - current + 1).toNat : ℕ) : ℤ) - 1 = m - current by omega,
        hdate _ (by omega) (by omega), show current + (m - current) = m by omega] at ht
      obtain rfl := Option.some.inj ht
      rw [getPartitionName_eq, o.zone_apply, hlocal] at hname
      have hparse := parsePartitionName_monthPartition hfour
      rw [← hname] at hparse
      obtain ⟨k, hk, rfl⟩ := hnamed p hp _ hparse
      obtain rfl := (monthPartition_name_inj hk hfour).1 hname
      exact hp
    · dsimp only at hp ⊢
      rw [hcurrent']
      obtain ⟨t, hfrom, lower, upper, hrange, rfl⟩ := hcreated p hp
      have hupper : dateUtcMonth (monthOf (t + o.ms) / 12) (monthOf (t + o.ms) % 12 + 1) = some upper := by
        have hsecond := congrArg Prod.snd hrange
        unfold getPartitionDateRange at hsecond
        dsimp only at hsecond
        rwa [getFullYear_eq, getMonth_eq, o.zone_apply] at hsecond
      -- No date is later than that of the third following month.
      have hlate : monthOf (t + o.ms) ≤ current + 3 := by
        cases hfrom with
        | initial i hi ht =>
          rw [hdate _ (by omega) (by omega)] at ht
          obtain rfl := Option.some.inj ht
          rw [hlocal]
          omega
        | historical oldest start hmin hstart hle hlt =>
          rw [hdate (-1) (by omega) (by omega)] at hlt
          have ht : t < monthStart (current + -1) := of_decide_eq_true hlt
          have hmonth : monthOf t < current + -1 := lt_monthStart_iff.1 ht
          rw [hutc, Int.add_zero]
          omega
      have hbound : ∀ k, k ≤ current + 4 → monthStart k ≤ monthStart (current + 3 + 1) :=
        fun k hk => monthStart_le_monthStart_iff.2 (by omega)
      show 1000 * upper ≤ 1000 * monthStart (current + 1 + 3 - ((0 : ℕ) : ℤ))
      rw [show current + 1 + 3 - ((0 : ℕ) : ℤ) = current + 3 + 1 by omega]
      rcases le_of_dateUtcMonth hupper (by omega) with hle | hle
      · have hle' := hbound (12 * (monthOf (t + o.ms) / 12) + (monthOf (t + o.ms) % 12 + 1)) (by omega)
        omega
      · have hle' := hbound (12 * 2000) (by omega)
        omega
    · dsimp only
      rw [hcurrent']
      omega
    · dsimp only
      omega

/-! ## Other offsets -/

/-- The middle of June 2026. -/
def june : ℤ := 1781524800000

/-- A row of the middle of May 2026. -/
def mayRow : StoredRow := ⟨⟨"1", "admin", "LOGIN", "auth", none, none, .finite 1778846400000000⟩, none, 1⟩

theorem monthOf_june (o : UtcOffset) : monthOf (june + o.ms) = 24317 := by
  have hstart : monthStart 24317 = 1780272000000 := by decide
  have hnext : monthStart (24317 + 1) = 1782864000000 := by decide
  have hlower := o.lower
  have hupper := o.upper
  unfold june
  exact monthOf_eq_iff.2 ⟨by omega, by omega⟩

/-- The driver's date of the row is in May, whatever the offset. -/
theorem addMonths_may (o : UtcOffset) : addMonths o.zone (some 1778846400000) 0 = some (monthStart 24316) := by
  have hstart : monthStart 24316 = 1777593600000 := by decide
  have hnext : monthStart (24316 + 1) = 1780272000000 := by decide
  have hlower := o.lower
  have hupper := o.upper
  have hmay : monthOf (1778846400000 + o.ms) = 24316 := monthOf_eq_iff.2 ⟨by omega, by omega⟩
  rw [addMonths_eq (by omega) (by omega) (by omega), hmay]
  rfl

/-- A table with this row that is partitioned in June 2026 has the partitions of five months. -/
theorem exists_juneStart (o : UtcOffset) :
    ∃ created months, Starts o ⟨⟨created, [mayRow]⟩, june, 24318, 0⟩ ∧ Months months created ∧
      ∀ n, n ∈ months ↔ ∃ m, 24316 ≤ m ∧ m ≤ 24320 ∧ n = monthOf (monthStart m + o.ms) := by
  obtain ⟨created, months, hinitial, hmonths, hmem⟩ := exists_initialPartitions (monthOf_june o)
    (fun m hlower hupper => by
      have hnear := o.monthOf_near (monthStart m)
      rw [monthOf_monthStart] at hnear
      unfold FourDigit
      omega) (by omega)
  refine ⟨created, months, ?_, hmonths, hmem⟩
  have hmay : 24316 ∈ months := by
    rw [hmem]
    rcases Int.lt_or_le o.ms 0 with hwest | heast
    · exact ⟨24317, by decide, by decide, (o.monthOf_west hwest 24317).symm⟩
    · exact ⟨24316, by decide, by decide, (o.monthOf_east heast 24316).symm⟩
  -- The row has the partition of its month.
  have hmigrate : migrateRows [1778846400000000] created = .ok created := by
    unfold migrateRows
    rw [if_pos]
    rw [List.all_cons, List.all_nil, Bool.and_true, List.any_eq_true]
    exact ⟨_, hmonths.eq ▸ List.mem_map_of_mem hmay, by decide⟩
  -- There is no earlier row for which a partition would be made.
  have hend : initializePartitioning o.zone june (fun _ => some 1778846400000) [1778846400000000] 1 =
      some (.ok created) := by
    have hprevious : addMonths o.zone (some june) (-1) = some (monthStart 24316) := by
      rw [addMonths_eq (by rw [monthOf_june]; decide) (by rw [monthOf_june]; decide)
        (by rw [monthOf_june]; decide), monthOf_june]
      rfl
    have hmin : [(1778846400000000 : ℤ)].min? = some 1778846400000000 := rfl
    unfold initializePartitioning
    rw [hinitial]
    dsimp only
    rw [hmin]
    dsimp only
    rw [hprevious, addMonths_may, historicalLoop, if_neg (by unfold dateLt; simp)]
    exact congrArg some hmigrate
  have hstart : Starts o ⟨⟨created, [mayRow]⟩, june, monthOf (june + o.ms) + 1, 0⟩ :=
    .intro hend rfl (by decide)
  rwa [monthOf_june] at hstart

/-- East of UTC the job of July fires in June, and with a retention of one month it drops the partition of
May. -/
theorem not_keepsRecent_of_east (heast : 0 < o.ms) {created : List Partition} {months : List ℤ}
    (hmonths : Months months created)
    (hmem : ∀ n, n ∈ months ↔ ∃ m, 24316 ≤ m ∧ m ≤ 24320 ∧ n = monthOf (monthStart m + o.ms)) :
    ¬KeepsRecent o 1 ⟨⟨created, [mayRow]⟩, o.jobTime 24318, 24318, 0⟩ (.job fun _ => false) := by
  intro hkeeps
  have hlocal : ∀ m, monthOf (monthStart m + o.ms) = m := o.monthOf_east (by omega)
  have hmem' : ∀ n, n ∈ months ↔ 24316 ≤ n ∧ n ≤ 24320 := by
    intro n
    rw [hmem]
    constructor
    · rintro ⟨m, hlower, hupper, rfl⟩
      rw [hlocal]
      exact ⟨hlower, hupper⟩
    · rintro ⟨hlower, hupper⟩
      exact ⟨n, hlower, hupper, (hlocal n).symm⟩
  have hmay : monthPartition 24316 ∈ created := hmonths.eq ▸ List.mem_map_of_mem ((hmem' _).2 (by decide))
  have hnow : monthOf (o.jobTime 24318 + o.ms) = 24318 := by
    unfold UtcOffset.jobTime
    rw [Int.sub_add_cancel, monthOf_monthStart]
  -- By the clock of the server it is July, and by UTC still June.
  have hutc : monthOf (o.jobTime 24318) = 24317 := by
    have hstart : monthStart 24317 = 1780272000000 := by decide
    have hnext : monthStart (24317 + 1) = 1782864000000 := by decide
    have hnext' : monthStart 24318 = 1782864000000 := hnext
    have hupper := o.upper
    unfold UtcOffset.jobTime
    exact monthOf_eq_iff.2 ⟨by omega, by omega⟩
  have hgone : monthPartition 24316 ∉
      (maintain o.zone (fun _ => false) 1 (o.jobTime 24318) ⟨created, [mayRow]⟩).partitions := by
    have hensured : Ensured 24316 24321 created := by
      refine ⟨fun p hp _ _ => ?_, fun m hlower hupper => ?_, fun p hp => ?_⟩
      · rw [hmonths.eq] at hp
        obtain ⟨m, hm, rfl⟩ := List.mem_map.1 hp
        exact ⟨m, hmonths.fourDigit m hm, rfl⟩
      · exact hmonths.eq ▸ List.mem_map_of_mem ((hmem' _).2 ⟨hlower, by omega⟩)
      · rw [hmonths.eq] at hp
        obtain ⟨m, hm, rfl⟩ := List.mem_map.1 hp
        have hle : monthStart (m + 1) ≤ monthStart 24321 :=
          monthStart_le_monthStart_iff.2 (by have := (hmem' m).1 hm; omega)
        show 1000 * monthStart (m + 1) ≤ 1000 * monthStart 24321
        omega
    obtain ⟨future, hfuture, -, hsub, -⟩ := hensured.ensureLoop heast.le (autoCreateFuture + 1)
      (by decide : (24316 : ℤ) ≤ 24318) (by decide) fun m hlower hupper => by
        have hupper' : m < 24318 + 4 := hupper
        unfold FourDigit
        omega
    have hensure : ensureFuturePartitions o.zone (o.jobTime 24318) created = (future, true) := by
      unfold ensureFuturePartitions
      rw [← hfuture]
      congr 1
      refine List.map_congr_left fun i hi => ?_
      have hi' : i < 4 := List.mem_range.1 hi
      rw [addMonths_eq (by omega) (by omega) (by omega), hnow]
    intro hkept
    unfold maintain at hkept
    rw [hensure] at hkept
    simp only [if_true, dropOldPartitions, Bool.not_true, Bool.false_eq_true, if_false] at hkept
    -- A month before July is June, and the partition of May ends there.
    have hcutoff : addMonths o.zone (some (o.jobTime 24318)) (-1) = some (monthStart 24317) := by
      rw [addMonths_eq (by omega) (by omega) (by omega), hnow]
      rfl
    have hfour : FourDigit 24316 := by
      unfold FourDigit
      omega
    have hrange := getPartitionDateRange_eq o.zone (t := monthStart 24316) (by
      rw [o.zone_apply, hlocal]
      exact hfour)
    rw [o.zone_apply, hlocal] at hrange
    have hdrop := mem_toDrop (n := 1).2 ⟨_, hsub hmay, _, parsePartitionName_monthPartition hfour, rfl,
      _, _, congrArg Prod.snd hrange, hcutoff, le_rfl⟩
    exact (dropLoop_partitions.1 hkept).2 _ hdrop rfl rfl
  have hrecent := hkeeps _ hmay hgone mayRow (List.mem_singleton_self _) (by decide) _ rfl
  -- But a month before the job, by UTC, begins in May.
  have hstart : monthStart 24316 = 1777593600000 := by decide
  dsimp only at hrecent
  rw [hutc] at hrecent
  have hrecent' : (1778846400000000 : ℤ) ≤ 1000 * monthStart 24316 := hrecent
  omega

/-- West of UTC no partition is made for the third month after the start, and two jobs that are missed leave
it without one. -/
theorem not_hasPartition_of_west (hwest : o.ms < 0) {created : List Partition} {months : List ℤ}
    (hmonths : Months months created)
    (hmem : ∀ n, n ∈ months ↔ ∃ m, 24316 ≤ m ∧ m ≤ 24320 ∧ n = monthOf (monthStart m + o.ms)) :
    ¬HasPartition ⟨⟨created, [mayRow]⟩, monthStart 24320, 24320, 2⟩ := by
  intro hhas
  obtain ⟨p, hp, htakes⟩ := hhas (1000 * monthStart 24320) (by dsimp only; omega)
  dsimp only at hp
  rw [hmonths.eq] at hp
  obtain ⟨n, hn, rfl⟩ := List.mem_map.1 hp
  rw [monthPartition_takes_iff, Int.mul_ediv_cancel_left _ (by decide), monthOf_monthStart] at htakes
  obtain ⟨m, -, hupper, hmonth⟩ := (hmem n).1 hn
  rw [o.monthOf_west hwest] at hmonth
  omega

/-- East of UTC a run loses recent rows. -/
theorem not_maintained_of_east (heast : 0 < o.ms) :
    ∃ s, Starts o s ∧ ¬Maintained o 1 s [.pass (o.jobTime 24318), .job fun _ => false] := by
  obtain ⟨created, months, hstarts, hmonths, hmem⟩ := exists_juneStart o
  refine ⟨_, hstarts, fun hmaintained => ?_⟩
  have hstart : monthStart 24318 = 1782864000000 := by decide
  have hend : clockEnd = 253370764800000 := by decide
  have hupper := o.upper
  have hpass : maintenanceStep o 1 ⟨⟨created, [mayRow]⟩, june, 24318, 0⟩ (.pass (o.jobTime 24318)) =
      some ⟨⟨created, [mayRow]⟩, o.jobTime 24318, 24318, 0⟩ := by
    unfold maintenanceStep
    dsimp only
    rw [if_pos]
    unfold UtcOffset.jobTime june
    omega
  obtain ⟨-, hrest⟩ := hmaintained.2 _ hpass
  have hjob : ∃ t, maintenanceStep o 1 ⟨⟨created, [mayRow]⟩, o.jobTime 24318, 24318, 0⟩ (.job fun _ => false) =
      some t := ⟨_, if_pos rfl⟩
  obtain ⟨t, hjob⟩ := hjob
  exact not_keepsRecent_of_east heast hmonths hmem (hrest t hjob).1

/-- West of UTC a run comes to a moment without a partition. -/
theorem not_maintained_of_west (hwest : o.ms < 0) (n : ℕ) :
    ∃ s, Starts o s ∧ ¬Maintained o n s [.pass (o.jobTime 24318), .miss, .pass (o.jobTime 24319), .miss,
      .pass (monthStart 24320)] := by
  obtain ⟨created, months, hstarts, hmonths, hmem⟩ := exists_juneStart o
  refine ⟨_, hstarts, fun hmaintained => not_hasPartition_of_west hwest hmonths hmem (hmaintained.1.last ?_)⟩
  have hjuly : monthStart 24318 = 1782864000000 := by decide
  have haugust : monthStart 24319 = 1785542400000 := by decide
  have hseptember : monthStart 24320 = 1788220800000 := by decide
  have hend : clockEnd = 253370764800000 := by decide
  have hlower := o.lower
  have htimes : june ≤ o.jobTime 24318 ∧ o.jobTime 24318 ≤ o.jobTime 24319 ∧
      o.jobTime 24319 ≤ monthStart 24320 ∧ monthStart 24320 ≤ o.jobTime 24320 ∧ o.jobTime 24319 < clockEnd ∧
        monthStart 24320 < clockEnd ∧ o.jobTime 24318 < clockEnd := by
    unfold UtcOffset.jobTime june
    omega
  obtain ⟨hfirst, hsecond, hthird, hlast, hclock, hclock', hclock''⟩ := htimes
  simp only [run, maintenanceStep, hfirst, hsecond, hthird, hlast, hclock, hclock', hclock'', and_self, if_true,
    le_refl, Option.bind_some, Int.reduceAdd, Nat.zero_add, Nat.zero_lt_two, Nat.one_lt_two]

/-- A server maintains its partitions, with every retention and in every run, exactly when its local time
is UTC. -/
theorem maintained_iff (o : UtcOffset) :
    (∀ (n : ℕ) (s : MaintenanceState) (actions : List MaintenanceAction), Starts o s → Maintained o n s actions) ↔
      o.ms = 0 := by
  constructor
  · intro h
    rcases lt_trichotomy o.ms 0 with hwest | hutc | heast
    · obtain ⟨s, hstarts, hnot⟩ := not_maintained_of_west hwest 0
      exact absurd (h 0 s _ hstarts) hnot
    · exact hutc
    · obtain ⟨s, hstarts, hnot⟩ := not_maintained_of_east heast
      exact absurd (h 1 s _ hstarts) hnot
  · intro hutc n s actions hstarts
    have hinv : s.Inv := hstarts.inv hutc
    constructor
    · exact along_of_guarded (fun _ => MaintenanceState.Inv.hasPartition)
        (fun _ _ _ hs _ hst => hs.step hutc hst) hinv (guarded_of_forall (fun _ _ => trivial) s actions)
    · have hsteps : Guarded (maintenanceStep o n) (fun _ _ => True) s actions :=
        guarded_of_forall (fun _ _ => trivial) s actions
      refine (guarded_congr (I := MaintenanceState.Inv) (fun _ _ _ hs _ hst => hs.step hutc hst)
        (fun _ _ _ hs hst => iff_of_true trivial (hs.keepsRecent hutc hst)) actions hinv).1 hsteps

/-- Three hours east of UTC. -/
def threeEast : UtcOffset := ⟨10800000, by decide, by decide⟩

/-- The job that fires at nine in the evening of 30 June drops the partition of the whole of May, with a
retention of one month. -/
theorem threeEast_not_maintained :
    ∃ s, Starts threeEast s ∧ ¬Maintained threeEast 1 s [.pass (threeEast.jobTime 24318), .job fun _ => false] :=
  not_maintained_of_east (by decide)

end AlsaqiBackend.Audit
