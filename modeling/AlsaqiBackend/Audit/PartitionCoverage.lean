import AlsaqiBackend.Audit.Partitions

/-!
# What the partitions cover

`initialize` should end with partitions of whole months, one behind the other, each with the name of its
month, in which every existing row has its place and so has every timestamp up to the end of the third month
after the current one. It does so exactly when the server is not west of UTC, the months that it makes have
years of four digits, and the month in which the driver's date of the oldest row falls in local time is not
later than the month of this row, unless the row is in the months that are made anyway
(`initializesCorrectly_iff`).
-/

namespace AlsaqiBackend.Audit

open AlsaqiBackend.Lib

/-- A partition takes the timestamp. -/
def Partition.Takes (p : Partition) (w : ℤ) : Prop := p.lower ≤ w ∧ w < p.upper

instance (p : Partition) (w : ℤ) : Decidable (p.Takes w) := by
  unfold Partition.Takes
  infer_instance

/-- What partitioning should leave: months without overlaps and gaps, under their names, with exactly one place
for every existing row and for every timestamp from now to the end of the third following month. -/
structure CoversTrail (now : ℤ) (rows : List ℤ) (partitions : List Partition) : Prop where
  months : ∀ p ∈ partitions, ∃ m, p.lower = 1000 * monthStart m ∧ p.upper = 1000 * monthStart (m + 1)
  disjoint : partitions.Pairwise fun p q => p.upper ≤ q.lower ∨ q.upper ≤ p.lower
  contiguous : ∀ p ∈ partitions, ∀ q ∈ partitions, p.upper < q.lower → ∃ r ∈ partitions, r.lower = p.upper
  named : ∀ p ∈ partitions, p.Named
  takesRows : ∀ w ∈ rows, ∃! p, p ∈ partitions ∧ p.Takes w
  takesFuture : ∀ w, 1000 * now ≤ w → w < 1000 * monthStart (monthOf now + 4) →
    ∃! p, p ∈ partitions ∧ p.Takes w

/-- `initialize` comes to its end, with what it should leave. -/
def InitializesCorrectly (o : UtcOffset) (now : ℤ) (toDate : ℤ → Option ℤ) (rows : List ℤ) : Prop :=
  ∃ fuel partitions, initializePartitioning o.zone now toDate rows fuel = some (.ok partitions) ∧
    CoversTrail now rows partitions

/-- The loop over the existing rows, if it is run at all, begins with a year of four digits, and it or the
month before the current one begins no later than the oldest row. -/
def LoopStartsInTime (o : UtcOffset) (previous : ℤ) (toDate : ℤ → Option ℤ) (oldest : ℤ) : Prop :=
  match addMonths o.zone (toDate oldest) 0 with
  | none => 1000 * monthStart previous ≤ oldest
  | some start =>
    (start < monthStart previous → FourDigit (monthOf start)) ∧
      1000 * min start (monthStart previous) ≤ oldest

/-- The server is not west of UTC, the months around its local one have years of four digits, and the loop over
the existing rows starts in time; none of them is later than the last partition. -/
def StartsInTime (o : UtcOffset) (now : ℤ) (toDate : ℤ → Option ℤ) (rows : List ℤ) : Prop :=
  0 ≤ o.ms ∧ FourDigit (monthOf (now + o.ms) - 1) ∧ FourDigit (monthOf (now + o.ms) + 3) ∧
    ∀ oldest ∈ rows.min?, LoopStartsInTime o (monthOf (now + o.ms) - 1) toDate oldest ∧
      ∀ w ∈ rows, w < 1000 * monthStart (monthOf (now + o.ms) + 4)

variable {o : UtcOffset} {now m : ℤ} {toDate : ℤ → Option ℤ} {rows : List ℤ} {partitions created : List Partition}

/-! ## Months in a list -/

/-- A month takes the timestamps of its milliseconds. -/
theorem monthPartition_takes_iff {w : ℤ} : (monthPartition m).Takes w ↔ monthOf (w / 1000) = m := by
  unfold Partition.Takes monthPartition
  dsimp only
  rw [monthOf_eq_iff]
  omega

/-- The partitions of these months, each of them once, all with years of four digits. -/
structure Months (months : List ℤ) (partitions : List Partition) : Prop where
  eq : partitions = months.map monthPartition
  nodup : months.Nodup
  fourDigit : ∀ m ∈ months, FourDigit m

/-- A round for a month adds it unless it is there. -/
theorem Months.createMonth {months : List ℤ} (h : Months months partitions) {t : ℤ}
    (hmonth : FourDigit (monthOf (t + o.ms))) :
    ∃ created months', createMonth o.zone partitions (some t) = .ok created ∧ Months months' created ∧
      ∀ m, m ∈ months' ↔ m ∈ months ∨ m = monthOf (t + o.ms) := by
  obtain ⟨rfl, hnodup, hfour⟩ := h
  have hrange := getPartitionDateRange_eq o.zone hmonth
  have hname := getPartitionName_eq o.zone t
  rw [o.zone_apply] at hrange hname
  generalize monthOf (t + o.ms) = n at hmonth hrange hname ⊢
  have hexists : (months.map monthPartition).any (·.name = (monthPartition n).name) = true ↔ n ∈ months := by
    rw [List.any_map, List.any_eq_true]
    constructor
    · rintro ⟨m, hm, heq⟩
      have hmn := (monthPartition_name_inj (hfour m hm) hmonth).1 (of_decide_eq_true heq)
      exact hmn ▸ hm
    · exact fun hn => ⟨n, hn, decide_eq_true rfl⟩
  unfold Audit.createMonth
  rw [hrange, hname]
  unfold createTable
  dsimp only
  by_cases hn : n ∈ months
  · rw [if_pos (hexists.2 hn)]
    exact ⟨_, months, rfl, ⟨rfl, hnodup, hfour⟩, fun m => ⟨.inl, fun hm => hm.elim id fun heq => heq ▸ hn⟩⟩
  · have hlt : monthStart n < monthStart (n + 1) := monthStart_lt_monthStart_iff.2 (by omega)
    -- Two months do not overlap.
    have hoverlap : ¬((months.map monthPartition).any fun p =>
        p.lower < 1000 * monthStart (n + 1) ∧ 1000 * monthStart n < p.upper) = true := by
      rw [List.any_map, List.any_eq_true]
      rintro ⟨m, hm, hover⟩
      obtain ⟨hlower, hupper⟩ := of_decide_eq_true hover
      unfold monthPartition at hlower hupper
      dsimp only at hlower hupper
      have hle : m < n + 1 := monthStart_lt_monthStart_iff.1 (by omega)
      have hge : n < m + 1 := monthStart_lt_monthStart_iff.1 (by omega)
      exact hn ((by omega : m = n) ▸ hm)
    rw [if_neg (mt hexists.1 hn), if_neg (by omega), if_neg hoverlap]
    refine ⟨_, months ++ [n], rfl, ⟨?_, ?_, ?_⟩, fun m => by rw [List.mem_append, List.mem_singleton]⟩
    · rw [List.map_append, List.map_singleton]
      rfl
    · exact List.nodup_append.2 ⟨hnodup, List.nodup_singleton n, fun a ha b hb heq =>
        hn (List.mem_singleton.1 hb ▸ heq ▸ ha)⟩
    · intro m hm
      rcases List.mem_append.1 hm with hold | hnew
      · exact hfour m hold
      · exact List.mem_singleton.1 hnew ▸ hmonth

/-- A loop over some dates adds their local months. -/
theorem Months.foldlM {months : List ℤ} (h : Months months partitions) (dates : List ℤ)
    (hfour : ∀ t ∈ dates, FourDigit (monthOf (t + o.ms))) :
    ∃ created months', (dates.map some).foldlM (Audit.createMonth o.zone) partitions = .ok created ∧
      Months months' created ∧ ∀ m, m ∈ months' ↔ m ∈ months ∨ ∃ t ∈ dates, m = monthOf (t + o.ms) := by
  induction dates generalizing partitions months with
  | nil => exact ⟨partitions, months, rfl, h, fun m => by simp⟩
  | cons t dates ih =>
    obtain ⟨between, months', hround, hmonths', hmem'⟩ := h.createMonth (hfour t List.mem_cons_self)
    obtain ⟨created, months'', hrest, hmonths'', hmem''⟩ :=
      ih hmonths' fun u hu => hfour u (List.mem_cons_of_mem _ hu)
    refine ⟨created, months'', ?_, hmonths'', fun m => ?_⟩
    · rw [List.map_cons, List.foldlM_cons, hround]
      exact hrest
    · rw [hmem'', hmem', List.exists_mem_cons_iff, or_assoc]

/-- East of UTC the loop over the months of the existing rows ends, and adds the months up to the last one. -/
theorem Months.historicalLoop (heast : 0 ≤ o.ms) {months : List ℤ} (h : Months months partitions)
    {start previous : ℤ} (hstart : start < previous → FourDigit start) (hprevious : FourDigit previous) :
    ∃ fuel created months',
      Audit.historicalLoop o.zone (some (monthStart previous)) fuel (some (monthStart start)) partitions =
          some (.ok created) ∧
        Months months' created ∧ ∀ m, m ∈ months' ↔ m ∈ months ∨ start ≤ m ∧ m < previous := by
  obtain ⟨rounds, hrounds⟩ : ∃ rounds : ℕ, rounds = (previous - start).toNat := ⟨_, rfl⟩
  induction rounds generalizing start partitions months with
  | zero =>
    refine ⟨1, partitions, months, ?_, h, fun m => ⟨.inl, fun hm => hm.elim id fun hm => by omega⟩⟩
    have hlt : ¬dateLt (some (monthStart start)) (some (monthStart previous)) = true := by
      unfold dateLt
      rw [decide_eq_true_eq, monthStart_lt_monthStart_iff]
      omega
    rw [Audit.historicalLoop, if_neg hlt]
  | succ rounds ih =>
    have hbefore : start < previous := by omega
    have hfour := hstart hbefore
    have hlt : dateLt (some (monthStart start)) (some (monthStart previous)) = true :=
      decide_eq_true (monthStart_lt_monthStart_iff.2 hbefore)
    have hlocal : monthOf (monthStart start + o.ms) = start := o.monthOf_east heast start
    obtain ⟨between, months', hround, hmonths', hmem'⟩ :=
      h.createMonth (o := o) (t := monthStart start) (by rw [hlocal]; exact hfour)
    have hnext : addMonths o.zone (some (monthStart start)) 1 = some (monthStart (start + 1)) := by
      unfold FourDigit at hfour
      rw [addMonths_eq (by omega) (by omega) (by omega), hlocal]
    have hfour' : start + 1 < previous → FourDigit (start + 1) := by
      unfold FourDigit at hfour hprevious ⊢
      omega
    obtain ⟨fuel, created, months'', hrest, hmonths'', hmem''⟩ := ih hmonths' hfour' (by omega)
    refine ⟨fuel + 1, created, months'', ?_, hmonths'', fun m => ?_⟩
    · rw [Audit.historicalLoop, if_pos hlt, hround, hnext]
      exact hrest
    · rw [hmem'', hmem', hlocal, or_assoc]
      refine or_congr_right ?_
      omega

/-- The partitions of the months of an interval cover what lies in it. -/
theorem Months.coversTrail {months : List ℤ} (h : Months months partitions) {first last : ℤ}
    (hmem : ∀ m, m ∈ months ↔ first ≤ m ∧ m ≤ last) (hfirst : first ≤ monthOf now) (hlast : monthOf now + 3 ≤ last)
    (hrows : ∀ w ∈ rows, 1000 * monthStart first ≤ w ∧ w < 1000 * monthStart (last + 1)) :
    CoversTrail now rows partitions := by
  obtain ⟨rfl, hnodup, hfour⟩ := h
  -- A row goes to the partition of its month, and to no other.
  have htakes : ∀ w, first ≤ monthOf (w / 1000) → monthOf (w / 1000) ≤ last →
      ∃! p, p ∈ months.map monthPartition ∧ p.Takes w := by
    intro w hlower hupper
    refine ⟨monthPartition (monthOf (w / 1000)), ⟨?_, monthPartition_takes_iff.2 rfl⟩, ?_⟩
    · exact List.mem_map_of_mem ((hmem _).2 ⟨hlower, hupper⟩)
    · rintro p ⟨hp, htake⟩
      obtain ⟨m, -, rfl⟩ := List.mem_map.1 hp
      rw [monthPartition_takes_iff.1 htake]
  constructor
  · intro p hp
    obtain ⟨m, -, rfl⟩ := List.mem_map.1 hp
    exact ⟨m, rfl, rfl⟩
  · rw [List.pairwise_map]
    refine hnodup.imp fun {m n} hne => ?_
    unfold monthPartition
    dsimp only
    -- Of two months, one ends before the other starts.
    have hcases : m + 1 ≤ n ∨ n + 1 ≤ m := by omega
    rcases hcases with hle | hle
    · have hstarts := monthStart_le_monthStart_iff.2 hle
      exact .inl (by omega)
    · have hstarts := monthStart_le_monthStart_iff.2 hle
      exact .inr (by omega)
  · intro p hp q hq hlt
    obtain ⟨m, hm, rfl⟩ := List.mem_map.1 hp
    obtain ⟨n, hn, rfl⟩ := List.mem_map.1 hq
    have hmn : m + 1 < n := by
      rw [← monthStart_lt_monthStart_iff]
      unfold monthPartition at hlt
      dsimp only at hlt
      omega
    have hm' := (hmem m).1 hm
    have hn' := (hmem n).1 hn
    exact ⟨monthPartition (m + 1), List.mem_map_of_mem ((hmem _).2 (by omega)), rfl⟩
  · intro p hp
    obtain ⟨m, hm, rfl⟩ := List.mem_map.1 hp
    exact ⟨monthStart m, parsePartitionName_monthPartition (hfour m hm), rfl⟩
  · intro w hw
    obtain ⟨hlower, hupper⟩ := hrows w hw
    refine htakes w (monthStart_le_iff.1 (by omega)) ?_
    rw [← Int.lt_add_one_iff, ← lt_monthStart_iff]
    omega
  · intro w hlower hupper
    have hnow : monthOf now ≤ monthOf (w / 1000) := monthOf_mono (by omega)
    have hend : monthOf (w / 1000) < monthOf now + 4 := lt_monthStart_iff.1 (by omega)
    exact htakes w (by omega) (by omega)

/-! ## The two directions -/

/-- The first moments of the month before the current one, of this one, and of the three that follow. -/
def initialDates (current : ℤ) : List ℤ :=
  (List.range (autoCreateFuture + 2)).map fun (i : ℕ) => monthStart (current + (i - 1))

theorem mem_initialDates {current t : ℤ} :
    t ∈ initialDates current ↔ ∃ m, current - 1 ≤ m ∧ m ≤ current + 3 ∧ t = monthStart m := by
  unfold initialDates
  rw [List.mem_map]
  constructor
  · rintro ⟨i, hi, rfl⟩
    have hi' : i < 5 := List.mem_range.1 hi
    exact ⟨current + (i - 1), by omega, by omega, rfl⟩
  · rintro ⟨m, hlower, hupper, rfl⟩
    refine ⟨(m - current + 1).toNat, List.mem_range.2 ?_, ?_⟩
    · show _ < 5
      omega
    · rw [show current + (((m - current + 1).toNat : ℕ) - 1) = m by omega]

/-- The first loop of `initialize` makes the local months of these dates. -/
theorem exists_initialPartitions {current : ℤ} (hcurrent : monthOf (now + o.ms) = current)
    (hfour : ∀ m, current - 1 ≤ m → m ≤ current + 3 → FourDigit (monthOf (monthStart m + o.ms)))
    (hyear : 1201 ≤ current ∧ current ≤ 120003) :
    ∃ created months, initialPartitions o.zone now = .ok created ∧ Months months created ∧
      ∀ n, n ∈ months ↔ ∃ m, current - 1 ≤ m ∧ m ≤ current + 3 ∧ n = monthOf (monthStart m + o.ms) := by
  obtain ⟨created, months, hcreated, hmonths, hmem⟩ := Months.foldlM ⟨rfl, List.nodup_nil, by simp⟩
    (initialDates current) fun t ht => by
      obtain ⟨m, hlower, hupper, rfl⟩ := mem_initialDates.1 ht
      exact hfour m hlower hupper
  refine ⟨created, months, ?_, hmonths, fun n => ?_⟩
  · unfold initialPartitions
    rw [← hcreated]
    unfold initialDates
    rw [List.map_map]
    congr 1
    refine List.map_congr_left fun i hi => ?_
    have hi' : i < 5 := List.mem_range.1 hi
    rw [addMonths_eq (by omega) (by omega) (by omega), hcurrent]
    rfl
  · rw [hmem]
    constructor
    · rintro (hnil | ⟨t, ht, rfl⟩)
      · exact absurd hnil List.not_mem_nil
      · obtain ⟨m, hlower, hupper, rfl⟩ := mem_initialDates.1 ht
        exact ⟨m, hlower, hupper, rfl⟩
    · rintro ⟨m, hlower, hupper, rfl⟩
      exact .inr ⟨monthStart m, mem_initialDates.2 ⟨m, hlower, hupper, rfl⟩, rfl⟩

/-- The oldest row is one of them, and the others are not older. -/
theorem le_of_min {oldest : ℤ} (h : rows.min? = some oldest) : oldest ∈ rows ∧ ∀ w ∈ rows, oldest ≤ w := by
  exact ⟨List.min?_mem h, fun w hw => (List.le_min?_iff h).1 le_rfl w hw⟩

/-- Where it starts in time, `initialize` ends with what it should leave. -/
theorem StartsInTime.initializesCorrectly (h : StartsInTime o now toDate rows) :
    InitializesCorrectly o now toDate rows := by
  obtain ⟨heast, hfirst, hlast, hrows⟩ := h
  have hnear := o.monthOf_near now
  have hle : monthOf now ≤ monthOf (now + o.ms) := monthOf_mono (by omega)
  obtain ⟨current, hcurrent⟩ : ∃ current, monthOf (now + o.ms) = current := ⟨_, rfl⟩
  have hfour : ∀ m, current - 1 ≤ m → m ≤ current + 3 → FourDigit m := by
    rw [hcurrent] at hfirst hlast
    unfold FourDigit at hfirst hlast ⊢
    intro m hlower hupper
    omega
  rw [hcurrent] at hfirst hlast hrows hnear hle
  unfold FourDigit at hfirst hlast
  have hlocal : ∀ m, monthOf (monthStart m + o.ms) = m := o.monthOf_east heast
  obtain ⟨created, months, hinitial, hmonths, hmem⟩ := exists_initialPartitions hcurrent
    (fun m hlower hupper => by rw [hlocal]; exact hfour m hlower hupper) (by omega)
  have hmem' : ∀ m, m ∈ months ↔ current - 1 ≤ m ∧ m ≤ current + 3 := by
    intro m
    rw [hmem]
    constructor
    · rintro ⟨n, hlower, hupper, rfl⟩
      rw [hlocal]
      exact ⟨hlower, hupper⟩
    · rintro ⟨hlower, hupper⟩
      exact ⟨m, hlower, hupper, (hlocal m).symm⟩
  cases hmin : rows.min? with
  | none =>
    refine ⟨0, created, ?_, hmonths.coversTrail hmem' (by omega) (by omega) ?_⟩
    · unfold initializePartitioning
      rw [hinitial]
      dsimp only
      rw [hmin]
    · rw [List.min?_eq_none_iff.1 hmin]
      exact fun w hw => absurd hw List.not_mem_nil
  | some oldest =>
    obtain ⟨hstart, hupper⟩ := hrows oldest hmin
    obtain ⟨holdest, hleast⟩ := le_of_min hmin
    have hprevious : addMonths o.zone (some now) (-1) = some (monthStart (current - 1)) := by
      rw [addMonths_eq (by omega) (by omega) (by omega), hcurrent]
      rfl
    -- What the loop leaves covers the months from the earlier of its start and the previous month on.
    obtain ⟨first, fuel, created', months', hloop, hmonths', hmem'', hfirst', hcovers⟩ :
        ∃ first fuel created' months', historicalLoop o.zone (some (monthStart (current - 1))) fuel
            (addMonths o.zone (toDate oldest) 0) created = some (.ok created') ∧
          Months months' created' ∧ (∀ m, m ∈ months' ↔ first ≤ m ∧ m ≤ current + 3) ∧
            first ≤ current - 1 ∧ 1000 * monthStart first ≤ oldest := by
      unfold LoopStartsInTime at hstart
      cases hdate : addMonths o.zone (toDate oldest) 0 with
      | none =>
        rw [hdate] at hstart
        exact ⟨current - 1, 1, created, months, rfl, hmonths, hmem', le_rfl, hstart⟩
      | some start =>
        rw [hdate] at hstart
        obtain ⟨hyear, hmin'⟩ := hstart
        obtain ⟨s, rfl⟩ : ∃ s, start = monthStart s := ⟨_, eq_monthStart_of_addMonths hdate⟩
        rw [monthOf_monthStart, monthStart_lt_monthStart_iff] at hyear
        obtain ⟨fuel, created', months', hloop, hmonths', hmem''⟩ :=
          hmonths.historicalLoop heast hyear (hfour (current - 1) le_rfl (by omega))
        refine ⟨min s (current - 1), fuel, created', months', hloop, hmonths', fun m => ?_, by omega, ?_⟩
        · rw [hmem'', hmem']
          omega
        · rwa [← monthStart_strictMono.monotone.map_min] at hmin'
    have hcovered : CoversTrail now rows created' := by
      refine hmonths'.coversTrail hmem'' (by omega) (by omega) fun w hw => ?_
      have hw' := hleast w hw
      have hw'' := hupper w hw
      exact ⟨by omega, by rwa [show current + 3 + 1 = current + 4 by omega]⟩
    refine ⟨fuel, created', ?_, hcovered⟩
    have hmigrate : migrateRows rows created' = .ok created' := by
      unfold migrateRows
      rw [if_pos]
      refine List.all_eq_true.2 fun w hw => List.any_eq_true.2 ?_
      obtain ⟨p, ⟨hp, htakes⟩, -⟩ := hcovered.takesRows w hw
      exact ⟨p, hp, decide_eq_true htakes⟩
    unfold initializePartitioning
    rw [hinitial]
    dsimp only
    rw [hmin]
    dsimp only
    rw [hprevious, hloop, Option.map_some]
    exact congrArg some hmigrate

/-- Where a partition of `initialize` comes from: the loop over the months around the current one, or that over
the months of the existing rows. -/
inductive CreatedFrom (o : UtcOffset) (now : ℤ) (toDate : ℤ → Option ℤ) (rows : List ℤ)
    (partitions : List Partition) (t : ℤ) : Prop
  | initial (i : ℕ) (hi : i < 5) (h : addMonths o.zone (some now) (i - 1) = some t)
  | historical (oldest start : ℤ) (hmin : rows.min? = some oldest)
      (hstart : addMonths o.zone (toDate oldest) 0 = some start)
      (hle : 0 ≤ o.ms → (∀ p ∈ partitions, p.Named) → start ≤ t)
      (hlt : dateLt (some t) (addMonths o.zone (some now) (-1)) = true)

/-- What `initialize` has created when it has ended. -/
theorem created_of_initializePartitioning {fuel : ℕ}
    (h : initializePartitioning o.zone now toDate rows fuel = some (.ok partitions)) :
    (∀ p ∈ partitions, ∃ t, CreatedFrom o now toDate rows partitions t ∧ CreatedAt o.zone t p) ∧
      (∀ i : ℕ, i < 5 → ∃ t, addMonths o.zone (some now) (i - 1) = some t ∧
        ∃ p ∈ partitions, p.name = getPartitionName o.zone (some t)) ∧
      ∀ oldest, rows.min? = some oldest →
        dateLt (addMonths o.zone (toDate oldest) 0) (addMonths o.zone (some now) (-1)) = true →
          ∃ p ∈ partitions, p.name = getPartitionName o.zone (addMonths o.zone (toDate oldest) 0) := by
  unfold initializePartitioning at h
  cases hinitial : initialPartitions o.zone now with
  | error e =>
    rw [hinitial] at h
    cases h
  | ok first =>
    rw [hinitial] at h
    dsimp only at h
    obtain ⟨-, hnames, hcreated⟩ := foldlM_createMonth hinitial
    -- The five months around the start.
    have hfirst : ∀ p ∈ first, ∃ t, CreatedFrom o now toDate rows partitions t ∧ CreatedAt o.zone t p := by
      intro p hp
      rcases hcreated p hp with hnil | ⟨t, ht, hp'⟩
      · exact absurd hnil List.not_mem_nil
      · obtain ⟨i, hi, heq⟩ := List.mem_map.1 ht
        exact ⟨t, .initial i (List.mem_range.1 hi) heq, hp'⟩
    have hdates : ∀ i : ℕ, i < 5 → ∃ t, addMonths o.zone (some now) (i - 1) = some t ∧
        ∃ p ∈ first, p.name = getPartitionName o.zone (some t) := by
      intro i hi
      exact hnames _ (List.mem_map.2 ⟨i, List.mem_range.2 hi, rfl⟩)
    cases hmin : rows.min? with
    | none =>
      rw [hmin] at h
      obtain rfl := Except.ok.inj (Option.some.inj h)
      exact ⟨hfirst, hdates, fun oldest hnone => absurd hnone.symm (Option.some_ne_none oldest)⟩
    | some oldest =>
      rw [hmin] at h
      dsimp only at h
      -- And the months from the oldest row on.
      obtain ⟨result, hloop, hresult⟩ := Option.map_eq_some_iff.1 h
      cases result with
      | error e => cases hresult
      | ok created =>
        have hmigrate : migrateRows rows created = .ok partitions := hresult
        unfold migrateRows at hmigrate
        split_ifs at hmigrate
        obtain rfl := Except.ok.inj hmigrate
        obtain ⟨hsub, hstart, hcreated'⟩ := historicalLoop_created hloop
        refine ⟨fun p hp => ?_, fun i hi => ?_, fun oldest' hmin' hlt => ?_⟩
        · rcases hcreated' p hp with hold | ⟨start, t, hdate, hle, hlt, hp'⟩
          · exact hfirst p hold
          · exact ⟨t, .historical oldest start hmin hdate hle hlt, hp'⟩
        · obtain ⟨t, ht, p, hp, hname⟩ := hdates i hi
          exact ⟨t, ht, p, hsub hp, hname⟩
        · obtain rfl := Option.some.inj hmin'
          exact hstart hlt

/-- Where `initialize` ends with what it should leave, it has started in time. -/
theorem InitializesCorrectly.startsInTime (h : InitializesCorrectly o now toDate rows) :
    StartsInTime o now toDate rows := by
  obtain ⟨fuel, partitions, hend, hcovers⟩ := h
  obtain ⟨hcreated, hdates, hstarts⟩ := created_of_initializePartitioning hend
  -- Every partition is that of the local month of the date that it comes from.
  have hmonth : ∀ p ∈ partitions, ∃ t, CreatedFrom o now toDate rows partitions t ∧ FourDigit (monthOf (t + o.ms)) ∧
      p = monthPartition (monthOf (t + o.ms)) := by
    intro p hp
    obtain ⟨t, hfrom, hat⟩ := hcreated p hp
    obtain ⟨u, hparse, -⟩ := hcovers.named p hp
    obtain ⟨hfour, heq⟩ := hat.eq_monthPartition hparse
    exact ⟨t, hfrom, hfour, heq⟩
  have hnear := o.monthOf_near now
  obtain ⟨current, hcurrent⟩ : ∃ current, monthOf (now + o.ms) = current := ⟨_, rfl⟩
  rw [hcurrent] at hnear
  -- The current time has a place, so that its year has four digits.
  have hnow : FourDigit (monthOf now) := by
    have hend' : now < monthStart (monthOf now + 4) := lt_monthStart_iff.2 (by omega)
    obtain ⟨p, ⟨hp, htakes⟩, -⟩ := hcovers.takesFuture (1000 * now) le_rfl (by omega)
    obtain ⟨t, -, hfour, rfl⟩ := hmonth p hp
    rw [monthPartition_takes_iff] at htakes
    rw [show now = 1000 * now / 1000 by omega, htakes]
    exact hfour
  unfold FourDigit at hnow
  have hdate : ∀ i : ℤ, -1 ≤ i → i ≤ 3 →
      addMonths o.zone (some now) i = some (monthStart (current + i)) := by
    intro i hlower hupper
    rw [addMonths_eq (by omega) (by omega) (by omega), hcurrent]
  -- All dates are at the latest that of the third following month.
  have hlatest : ∀ t, CreatedFrom o now toDate rows partitions t → t ≤ monthStart (current + 3) := by
    intro t hfrom
    cases hfrom with
    | initial i hi ht =>
      rw [hdate _ (by omega) (by omega)] at ht
      obtain rfl := Option.some.inj ht
      exact monthStart_le_monthStart_iff.2 (by omega)
    | historical oldest start hmin hstart hle hlt =>
      rw [hdate (-1) (by omega) (by omega)] at hlt
      have ht : t < monthStart (current + -1) := of_decide_eq_true hlt
      have hle' : monthStart (current + -1) ≤ monthStart (current + 3) :=
        monthStart_le_monthStart_iff.2 (by omega)
      omega
  have heast : 0 ≤ o.ms := by
    by_contra hwest
    -- The last timestamp of the third following month needs a partition that is not created.
    have hlt : monthStart (monthOf now + 3) < monthStart (monthOf now + 4) :=
      monthStart_lt_monthStart_iff.2 (by omega)
    have hle : now < monthStart (monthOf now + 1) := lt_monthStart_iff.2 (by omega)
    have hle' : monthStart (monthOf now + 1) ≤ monthStart (monthOf now + 3) :=
      monthStart_le_monthStart_iff.2 (by omega)
    obtain ⟨p, ⟨hp, htakes⟩, -⟩ :=
      hcovers.takesFuture (1000 * monthStart (monthOf now + 4) - 1) (by omega) (by omega)
    obtain ⟨t, hfrom, -, rfl⟩ := hmonth p hp
    rw [monthPartition_takes_iff] at htakes
    have hlast : monthOf ((1000 * monthStart (monthOf now + 4) - 1) / 1000) = monthOf now + 3 :=
      monthOf_eq_iff.2 ⟨by omega, by rw [show monthOf now + 3 + 1 = monthOf now + 4 by omega]; omega⟩
    have ht := hlatest t hfrom
    have htooEarly : monthOf (t + o.ms) < current + 3 := lt_monthStart_iff.1 (by omega)
    have hback : current ≤ monthOf now := by
      rw [← hcurrent]
      exact monthOf_mono (by omega)
    omega
  have hlocal : ∀ m, monthOf (monthStart m + o.ms) = m := o.monthOf_east heast
  have hfour : ∀ i : ℕ, i < 5 → FourDigit (current + (i - 1)) := by
    intro i hi
    obtain ⟨t, ht, p, hp, hname⟩ := hdates i hi
    rw [hdate _ (by omega) (by omega)] at ht
    obtain rfl := Option.some.inj ht
    obtain ⟨u, hparse, -⟩ := hcovers.named p hp
    rw [hname] at hparse
    have hparsed := fourDigit_of_parse hparse
    rwa [o.zone_apply, hlocal] at hparsed
  unfold StartsInTime
  rw [hcurrent]
  refine ⟨heast, ?_, ?_, fun oldest hmin => ⟨?_, ?_⟩⟩
  · have hfirst := hfour 0 (by omega)
    rwa [show current + ((0 : ℕ) - 1) = current - 1 by omega] at hfirst
  · have hlast := hfour 4 (by omega)
    rwa [show current + ((4 : ℕ) - 1) = current + 3 by omega] at hlast
  · obtain ⟨p, ⟨hp, htakes⟩, -⟩ := hcovers.takesRows oldest (List.min?_mem hmin)
    obtain ⟨t, hfrom, -, rfl⟩ := hmonth p hp
    have holdest : 1000 * monthStart (monthOf (t + o.ms)) ≤ oldest := htakes.1
    have hinitial : ∀ i : ℕ, i < 5 → addMonths o.zone (some now) (i - 1) = some t →
        1000 * monthStart (current - 1) ≤ oldest := by
      intro i hi ht
      rw [hdate _ (by omega) (by omega)] at ht
      obtain rfl := Option.some.inj ht
      rw [hlocal] at holdest
      have hle : monthStart (current - 1) ≤ monthStart (current + (i - 1)) :=
        monthStart_le_monthStart_iff.2 (by omega)
      omega
    unfold LoopStartsInTime
    cases hstart : addMonths o.zone (toDate oldest) 0 with
    | none =>
      cases hfrom with
      | initial i hi ht => exact hinitial i hi ht
      | historical oldest' start hmin' hstart' hle hlt =>
        obtain rfl := Option.some.inj (hmin.symm.trans hmin')
        rw [hstart] at hstart'
        exact absurd hstart'.symm (Option.some_ne_none start)
    | some start =>
      obtain ⟨s, rfl⟩ : ∃ s, start = monthStart s := ⟨_, eq_monthStart_of_addMonths hstart⟩
      refine ⟨fun hlt => ?_, ?_⟩
      · have hlt' : dateLt (addMonths o.zone (toDate oldest) 0) (addMonths o.zone (some now) (-1)) = true := by
          rw [hstart, hdate (-1) (by omega) (by omega)]
          exact decide_eq_true hlt
        obtain ⟨q, hq, hname⟩ := hstarts oldest hmin hlt'
        obtain ⟨u, hparse, -⟩ := hcovers.named q hq
        rw [hname, hstart] at hparse
        have hparsed := fourDigit_of_parse hparse
        rw [o.zone_apply, hlocal] at hparsed
        rwa [monthOf_monthStart]
      · cases hfrom with
        | initial i hi ht =>
          have hle := hinitial i hi ht
          omega
        | historical oldest' start' hmin' hstart' hle hlt =>
          obtain rfl := Option.some.inj (hmin.symm.trans hmin')
          obtain rfl := Option.some.inj (hstart.symm.trans hstart')
          -- The date of the partition is not earlier than that of the start, and neither is its month.
          have hs : s ≤ monthOf (t + o.ms) := by
            rw [← hlocal s]
            have hst := hle heast hcovers.named
            exact monthOf_mono (by omega)
          have hle' : monthStart s ≤ monthStart (monthOf (t + o.ms)) := monthStart_le_monthStart_iff.2 hs
          omega
  · intro w hw
    obtain ⟨p, ⟨hp, htakes⟩, -⟩ := hcovers.takesRows w hw
    obtain ⟨t, hfrom, -, rfl⟩ := hmonth p hp
    have hupper : w < 1000 * monthStart (monthOf (t + o.ms) + 1) := htakes.2
    have ht : monthOf (t + o.ms) ≤ current + 3 := by
      rw [← hlocal (current + 3)]
      have hle := hlatest t hfrom
      exact monthOf_mono (by omega)
    have hle : monthStart (monthOf (t + o.ms) + 1) ≤ monthStart (current + 4) :=
      monthStart_le_monthStart_iff.2 (by omega)
    omega

/-- `initialize` ends with what it should leave exactly when it starts in time. -/
theorem initializesCorrectly_iff (o : UtcOffset) (now : ℤ) (toDate : ℤ → Option ℤ) (rows : List ℤ) :
    InitializesCorrectly o now toDate rows ↔ StartsInTime o now toDate rows :=
  ⟨InitializesCorrectly.startsInTime, StartsInTime.initializesCorrectly⟩

/-- A driver that reads timestamps as local times starts the loop in the month of the oldest row. -/
theorem loopStartsInTime_of_local {oldest : ℤ} (previous : ℤ) (hdate : toDate oldest = some (oldest / 1000 - o.ms))
    (hfour : FourDigit (monthOf (oldest / 1000))) : LoopStartsInTime o previous toDate oldest := by
  have hlocal : monthOf (oldest / 1000 - o.ms + o.ms) = monthOf (oldest / 1000) := by
    rw [Int.sub_add_cancel]
  have hstart : addMonths o.zone (toDate oldest) 0 = some (monthStart (monthOf (oldest / 1000))) := by
    unfold FourDigit at hfour
    rw [hdate, addMonths_eq (by omega) (by omega) (by omega), hlocal, Int.add_zero]
  have hle : monthStart (monthOf (oldest / 1000)) ≤ oldest / 1000 := monthStart_le_iff.2 le_rfl
  unfold LoopStartsInTime
  rw [hstart]
  refine ⟨fun _ => ?_, by omega⟩
  rwa [monthOf_monthStart]

/-! ## West of UTC -/

/-- West of UTC the step to the next month does not leave the month. -/
theorem addMonths_west (h : o.ms < 0) (hm : 1201 ≤ m) (hm' : m ≤ 130000) :
    addMonths o.zone (some (monthStart m)) 1 = some (monthStart m) := by
  rw [addMonths_eq]
  all_goals rw [o.monthOf_west h]
  · rw [Int.sub_add_cancel]
  all_goals omega

/-- So the loop over the months of the existing rows never ends once it has begun. -/
theorem historicalLoop_west (h : o.ms < 0) (hm : 1201 ≤ m) (hm' : m ≤ 130000) {current : ℤ}
    (hlt : monthStart m < current) (fuel : ℕ) :
    historicalLoop o.zone (some current) fuel (some (monthStart m)) partitions ≠ some (.ok created) := by
  have hdate : dateLt (some (monthStart m)) (some current) = true := decide_eq_true hlt
  induction fuel generalizing partitions with
  | zero => exact (Option.some_ne_none (Except.ok created)).symm
  | succ fuel ih =>
    rw [historicalLoop, if_pos hdate, addMonths_west h hm hm']
    cases createMonth o.zone partitions (some (monthStart m)) with
    | error e =>
      intro heq
      cases Option.some.inj heq
    | ok between => exact ih

/-- Five hours west of UTC. -/
def fiveWest : UtcOffset := ⟨-18000000, by decide, by decide⟩

/-- In June 2026, with a row of January 2026. -/
theorem fiveWest_not_initializesCorrectly :
    ¬InitializesCorrectly fiveWest 1781524800000 (fun w => some (w / 1000)) [1768478400000000] :=
  fun h => absurd h.startsInTime.1 (by decide)

end AlsaqiBackend.Audit
