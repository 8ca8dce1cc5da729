import AlsaqiBackend.Audit.Retention
import AlsaqiBackend.Lib.Months
import AlsaqiBackend.Lib.Numerals

/-!
# Creation of the partitions

`PartitionManager.initialize` makes a partition for the month before the current one, for the current one
and for the three that follow, and then one for every month from the oldest row on. The functions that name a
partition, give its range and step to the next month read the year and the month of a date in local time, and
build dates in UTC.

East of UTC, and at UTC, the first moment of a month in UTC is of the same month in local time, and the
partitions are those of their names. West of UTC it is of the month before: the range is that month, one too
early, and the step to the next month leads back to the same one.
-/

namespace AlsaqiBackend.Audit

open AlsaqiBackend.Lib

/-! ## Names -/

/-- The name of the partition of a month, which counts from 0. -/
def nameOfMonth (year month : ℤ) : String :=
  String.ofList ("audit_trail_y".toList ++ (intText year ++ 'm' :: padded 2 (month + 1).toNat))

/-- `getPartitionName`. -/
def getPartitionName (zone : TimeZone) (date : Option ℤ) : String :=
  match date with
  | none => "audit_trail_yNaNmNaN"
  | some t => nameOfMonth (getFullYear zone t) (getMonth zone t)

theorem digitsValue_eq (digits : List Char) : digitsValue digits = (Nat.ofDigitChars 10 digits 0 : ℤ) := by
  have hfold : ∀ n : ℕ, digits.foldl (fun (n : ℤ) c => 10 * n + (c.toNat - '0'.toNat : ℕ)) n =
      (Nat.ofDigitChars 10 digits n : ℤ) := by
    induction digits with
    | nil => exact fun n => by rw [Nat.ofDigitChars_nil]; rfl
    | cons c digits ih =>
      intro n
      rw [List.foldl_cons, Nat.ofDigitChars_cons, ← ih]
      congr 1
  exact hfold 0

/-- A text of digits has four of them exactly when its number has. -/
theorem length_intText_eq_four_iff {n : ℕ} : (intText n).length = 4 ↔ 1000 ≤ n ∧ n ≤ 9999 := by
  have hthree := Nat.length_toDigits_le_iff (b := 10) (n := n) (k := 3) (by decide) (by decide)
  have hfour := Nat.length_toDigits_le_iff (b := 10) (n := n) (k := 4) (by decide) (by decide)
  have htext : (intText n).length = (Nat.toDigits 10 n).length := by
    show (padded 0 n).length = _
    unfold padded padZeros
    rw [List.length_append, List.length_replicate]
    omega
  norm_num at hthree hfour
  rw [htext]
  omega

/-- A name is read back where its year has four digits, and it is not recognized for another year. -/
theorem parsePartitionName_nameOfMonth {year month : ℤ} (h : 0 ≤ month) (h' : month < 12) :
    parsePartitionName (nameOfMonth year month) =
      if 1000 ≤ year ∧ year ≤ 9999 then some (dateUtcMonth year month) else none := by
  have hdrop : (nameOfMonth year month).toList.dropPrefix? "audit_trail_y".toList =
      some (intText year ++ 'm' :: padded 2 (month + 1).toNat) := by
    unfold nameOfMonth
    rw [String.toList_ofList]
    exact List.dropPrefix?_append_of_beq _ (by decide)
  have hmonth : (padded 2 (month + 1).toNat).length = 2 := length_padded (by decide) (by omega)
  have hmonthValue : digitsValue (padded 2 (month + 1).toNat) - 1 = month := by
    rw [digitsValue_eq, ofDigitChars_padded]
    omega
  have hmonthDigits : ∀ c ∈ padded 2 (month + 1).toNat, c.isDigit = true := fun c => isDigit_of_mem_padded
  obtain ⟨m1, m2, hm⟩ := List.length_eq_two.1 hmonth
  rw [hm] at hdrop hmonthValue hmonthDigits
  unfold parsePartitionName
  rw [hdrop]
  split_ifs with hyear
  · obtain ⟨n, rfl⟩ := Int.eq_ofNat_of_zero_le (a := year) (by omega)
    have hlength : (intText n).length = 4 := length_intText_eq_four_iff.2 (by omega)
    have hvalue : digitsValue (intText n) = n := by
      rw [digitsValue_eq]
      exact congrArg Int.ofNat ofDigitChars_padded
    have hdigits : ∀ c ∈ intText n, c.isDigit = true := fun c => isDigit_of_mem_padded
    obtain ⟨y1, y2, y3, y4, hy⟩ : ∃ y1 y2 y3 y4, intText n = [y1, y2, y3, y4] := by
      match intText n, hlength with
      | [y1, y2, y3, y4], _ => exact ⟨y1, y2, y3, y4, rfl⟩
    rw [hy] at hvalue hdigits ⊢
    simp only [List.cons_append, List.nil_append]
    rw [if_pos, hvalue, hmonthValue]
    simp only [List.all_cons, List.all_nil, Bool.and_true, Bool.and_eq_true]
    simp only [List.forall_mem_cons, List.not_mem_nil, false_implies, implies_true, and_true] at hdigits hmonthDigits
    exact ⟨hdigits.1, hdigits.2.1, hdigits.2.2.1, hdigits.2.2.2, hmonthDigits.1, hmonthDigits.2⟩
  · -- Only a year of four digits leaves a text of the length of the pattern.
    split
    next y1 y2 y3 y4 c1 c2 heq =>
      rw [if_neg]
      intro hall
      have hcut : intText year ++ 'm' :: [m1, m2] = [y1, y2, y3, y4] ++ 'm' :: [c1, c2] :=
        Option.some.inj heq
      obtain ⟨htext, -⟩ := List.append_inj' hcut rfl
      cases year with
      | ofNat n =>
        have hlength : (intText n).length = 4 := by
          show (intText (Int.ofNat n)).length = 4
          rw [htext]
          rfl
        have hn := length_intText_eq_four_iff.1 hlength
        exact hyear (by simp only [Int.ofNat_eq_natCast]; omega)
      | negSucc n =>
        -- The first character is the sign.
        obtain rfl : '-' = y1 := (List.cons.inj htext).1
        exact absurd hall (by simp [Char.isDigit])
    next => rfl

/-! ## The time of a server -/

/-- The offset of a server's local time to UTC, in milliseconds. -/
structure UtcOffset where
  ms : ℤ
  lower : -(12 * 3600000) ≤ ms
  upper : ms ≤ 14 * 3600000

/-- The time zone of the offset. -/
def UtcOffset.zone (o : UtcOffset) : TimeZone := fun _ => o.ms

@[simp]
theorem UtcOffset.zone_apply (o : UtcOffset) (t : ℤ) : o.zone t = o.ms := rfl

/-! ## Creation -/

/-- Why the creation of partitions fails: `toISOString` throws, PostgreSQL rejects the range or the overlap of
it, or a row finds no partition. -/
inductive PartitionError where
  | invalidDate
  | emptyRange
  | overlap
  | noPartition
deriving DecidableEq

/-- `CREATE TABLE IF NOT EXISTS … PARTITION OF … FOR VALUES FROM … TO …`. The bounds of a partition are in
microseconds. -/
def createTable (partitions : List Partition) (name : String) (startDate endDate : Option ℤ) :
    Except PartitionError (List Partition) :=
  match startDate, endDate with
  | some lower, some upper =>
    if partitions.any (·.name = name) then .ok partitions
    else if upper ≤ lower then .error .emptyRange
    else if partitions.any fun p => p.lower < 1000 * upper ∧ 1000 * lower < p.upper then .error .overlap
    else .ok (partitions ++ [⟨name, 1000 * lower, 1000 * upper⟩])
  | _, _ => .error .invalidDate

/-- One round of a loop that names a partition after a date and takes its range from it. -/
def createMonth (zone : TimeZone) (partitions : List Partition) (date : Option ℤ) :
    Except PartitionError (List Partition) :=
  let (startDate, endDate) := getPartitionDateRange zone date
  createTable partitions (getPartitionName zone date) startDate endDate

/-- `new Date(Date.UTC(date.getFullYear(), date.getMonth() + i, 1))`. -/
def addMonths (zone : TimeZone) (date : Option ℤ) (i : ℤ) : Option ℤ :=
  date.bind fun t => dateUtcMonth (getFullYear zone t) (getMonth zone t + i)

/-- `DEFAULT_CONFIG.autoCreateFuture`. -/
def autoCreateFuture : ℕ := 3

/-- The first loop of `initialize`, from the month before `now` on. -/
def initialPartitions (zone : TimeZone) (now : ℤ) : Except PartitionError (List Partition) :=
  ((List.range (autoCreateFuture + 2)).map fun (i : ℕ) => addMonths zone (some now) (i - 1)).foldlM
    (createMonth zone) []

/-- `a < b` for dates: never true of an invalid one. -/
def dateLt (a b : Option ℤ) : Bool :=
  match a, b with
  | some t, some u => t < u
  | _, _ => false

/-- The loop over the months of the existing rows. `none`: it is still running after so many rounds. -/
def historicalLoop (zone : TimeZone) (currentDate : Option ℤ) :
    ℕ → Option ℤ → List Partition → Option (Except PartitionError (List Partition))
  | 0, _, _ => none
  | fuel + 1, iterDate, partitions =>
    if dateLt iterDate currentDate then
      match createMonth zone partitions iterDate with
      | .error e => some (.error e)
      | .ok created => historicalLoop zone currentDate fuel (addMonths zone iterDate 1) created
    else some (.ok partitions)

/-- The `INSERT` of the existing rows: each of them needs a partition. -/
def migrateRows (rows : List ℤ) (partitions : List Partition) : Except PartitionError (List Partition) :=
  if rows.all fun w => partitions.any fun p => p.lower ≤ w ∧ w < p.upper then .ok partitions
  else .error .noPartition

/-- `initialize` on a table that is not partitioned, with the partitions of the new one. A row is its timestamp
in microseconds, and `toDate` is what the driver and `new Date` make of the oldest. -/
def initializePartitioning (zone : TimeZone) (now : ℤ) (toDate : ℤ → Option ℤ) (rows : List ℤ) (fuel : ℕ) :
    Option (Except PartitionError (List Partition)) :=
  match initialPartitions zone now with
  | .error e => some (.error e)
  | .ok partitions =>
    match rows.min? with
    | none => some (.ok partitions)
    | some oldest =>
      let currentDate := addMonths zone (some now) (-1)
      (historicalLoop zone currentDate fuel (addMonths zone (toDate oldest) 0) partitions).map
        (·.bind (migrateRows rows))

/-! ## Months and their partitions -/

/-- The partition of a month, with the name of it. -/
def monthPartition (m : ℤ) : Partition where
  name := nameOfMonth (m / 12) (m % 12)
  lower := 1000 * monthStart m
  upper := 1000 * monthStart (m + 1)

/-- The year of the month has four digits. -/
def FourDigit (m : ℤ) : Prop := 12000 ≤ m ∧ m < 120000

/-- The name of the partition is that of its first month. -/
def Partition.Named (p : Partition) : Prop :=
  ∃ t, parsePartitionName p.name = some (some t) ∧ p.lower = 1000 * t

variable {zone : TimeZone} {m m' t : ℤ} {date : Option ℤ} {partitions created : List Partition} {p : Partition}

theorem FourDigit.dateUtcMonth (h : FourDigit m) : dateUtcMonth (m / 12) (m % 12) = some (monthStart m) := by
  have hm : 12 * (m / 12) + m % 12 = m := by omega
  unfold FourDigit at h
  rw [dateUtcMonth_eq (by omega), hm, timeClip_monthStart (by omega) (by omega)]

theorem FourDigit.dateUtcMonth_succ (h : FourDigit m) :
    Lib.dateUtcMonth (m / 12) (m % 12 + 1) = some (monthStart (m + 1)) := by
  have hm : 12 * (m / 12) + (m % 12 + 1) = m + 1 := by omega
  unfold FourDigit at h
  rw [dateUtcMonth_eq (by omega), hm, timeClip_monthStart (by omega) (by omega)]

theorem parsePartitionName_monthPartition (h : FourDigit m) :
    parsePartitionName (monthPartition m).name = some (some (monthStart m)) := by
  have hyear : 1000 ≤ m / 12 ∧ m / 12 ≤ 9999 := by
    unfold FourDigit at h
    omega
  unfold monthPartition
  rw [parsePartitionName_nameOfMonth (by omega) (by omega), if_pos hyear, h.dateUtcMonth]

theorem monthPartition_name_inj (h : FourDigit m) (h' : FourDigit m') :
    (monthPartition m).name = (monthPartition m').name ↔ m = m' := by
  constructor
  · intro hname
    have hparse := parsePartitionName_monthPartition h
    rw [hname, parsePartitionName_monthPartition h', Option.some.injEq, Option.some.injEq] at hparse
    exact (monthStart_strictMono.injective hparse).symm
  · exact fun heq => by rw [heq]

/-- The range of a date, which is that of its local month. -/
theorem getPartitionDateRange_eq (zone : TimeZone) (h : FourDigit (monthOf (t + zone t))) :
    getPartitionDateRange zone (some t) =
      (some (monthStart (monthOf (t + zone t))), some (monthStart (monthOf (t + zone t) + 1))) := by
  unfold getPartitionDateRange
  dsimp only
  rw [getFullYear_eq, getMonth_eq, h.dateUtcMonth, h.dateUtcMonth_succ]

theorem getPartitionName_eq (zone : TimeZone) (t : ℤ) :
    getPartitionName zone (some t) = (monthPartition (monthOf (t + zone t))).name := by
  unfold getPartitionName monthPartition
  dsimp only
  rw [getFullYear_eq, getMonth_eq]

/-! ## Offsets -/

/-- East of UTC, and at UTC, the first moment of a month is in this month. -/
theorem UtcOffset.monthOf_east (o : UtcOffset) (h : 0 ≤ o.ms) (m : ℤ) : monthOf (monthStart m + o.ms) = m := by
  refine monthOf_monthStart_add h ?_
  have hmax := o.upper
  unfold msPerDay
  omega

/-- West of UTC it is in the month before. -/
theorem UtcOffset.monthOf_west (o : UtcOffset) (h : o.ms < 0) (m : ℤ) :
    monthOf (monthStart m + o.ms) = m - 1 := by
  refine monthOf_monthStart_sub h ?_
  have hmin := o.lower
  unfold msPerDay
  omega

/-- The local month is the month in UTC, or one next to it. -/
theorem UtcOffset.monthOf_near (o : UtcOffset) (t : ℤ) :
    monthOf t - 1 ≤ monthOf (t + o.ms) ∧ monthOf (t + o.ms) ≤ monthOf t + 1 := by
  obtain ⟨hlower, hupper⟩ := monthOf_eq_iff.1 (rfl : monthOf t = monthOf t)
  have hbefore := monthStart_succ (monthOf t - 1)
  have hafter := monthStart_succ (monthOf t + 1)
  have hmin := o.lower
  have hmax := o.upper
  rw [Int.sub_add_cancel] at hbefore
  unfold msPerDay at hbefore hafter
  constructor
  · rw [← monthStart_le_iff]
    omega
  · rw [← Int.lt_add_one_iff, ← lt_monthStart_iff]
    omega

/-- The local month of a date, some months later. -/
theorem addMonths_eq {o : UtcOffset} {i : ℤ} (h : 1200 ≤ monthOf (t + o.ms)) (h' : 0 ≤ monthOf (t + o.ms) + i)
    (h'' : monthOf (t + o.ms) + i ≤ 130000) :
    addMonths o.zone (some t) i = some (monthStart (monthOf (t + o.ms) + i)) := by
  have hm : 12 * (monthOf (t + o.ms) / 12) + (monthOf (t + o.ms) % 12 + i) = monthOf (t + o.ms) + i := by omega
  unfold addMonths
  rw [Option.bind_some, getFullYear_eq, getMonth_eq]
  show dateUtcMonth (monthOf (t + o.ms) / 12) (monthOf (t + o.ms) % 12 + i) = _
  rw [dateUtcMonth_eq (by omega), hm, timeClip_monthStart h' h'']

/-- What a loop builds from a date begins a month. -/
theorem eq_monthStart_of_addMonths {i u : ℤ} (h : addMonths zone date i = some u) :
    u = monthStart (monthOf u) := by
  obtain ⟨t, -, ht⟩ := Option.bind_eq_some_iff.1 h
  exact eq_monthStart_of_dateUtcMonth ht

/-! ## What a round creates -/

/-- A partition with the name and the range of a date. -/
def CreatedAt (zone : TimeZone) (t : ℤ) (p : Partition) : Prop :=
  ∃ lower upper, getPartitionDateRange zone (some t) = (some lower, some upper) ∧
    p = ⟨getPartitionName zone (some t), 1000 * lower, 1000 * upper⟩

/-- A name that is recognized is that of a month with a year of four digits. -/
theorem fourDigit_of_parse {d : Option ℤ}
    (h : parsePartitionName (getPartitionName zone (some t)) = some d) : FourDigit (monthOf (t + zone t)) := by
  rw [getPartitionName_eq] at h
  unfold monthPartition at h
  rw [parsePartitionName_nameOfMonth (by omega) (by omega)] at h
  split_ifs at h with hyear
  unfold FourDigit
  omega

/-- A partition that has the name of a date, where this name is recognized, is that of the local month. -/
theorem CreatedAt.eq_monthPartition (h : CreatedAt zone t p) {d : Option ℤ}
    (hparse : parsePartitionName p.name = some d) :
    FourDigit (monthOf (t + zone t)) ∧ p = monthPartition (monthOf (t + zone t)) := by
  obtain ⟨lower, upper, hrange, rfl⟩ := h
  have hfour := fourDigit_of_parse hparse
  rw [getPartitionDateRange_eq zone hfour, Prod.mk.injEq, Option.some.injEq, Option.some.injEq] at hrange
  refine ⟨hfour, ?_⟩
  rw [getPartitionName_eq, ← hrange.1, ← hrange.2]
  rfl

/-- What a round leaves of the partitions: it has a date, there is a partition of its name after it, and the
one that it may have added has the range of the date. -/
theorem createMonth_cases (h : createMonth zone partitions date = .ok created) :
    ∃ t, date = some t ∧ (∃ p ∈ created, p.name = getPartitionName zone (some t)) ∧
      (created = partitions ∨ ∃ p, CreatedAt zone t p ∧ created = partitions ++ [p]) := by
  unfold createMonth at h
  cases date with
  | none => cases h
  | some t =>
    refine ⟨t, rfl, ?_⟩
    cases hrange : getPartitionDateRange zone (some t) with
    | mk startDate endDate =>
      rw [hrange] at h
      cases startDate with
      | none => cases h
      | some lower =>
        cases endDate with
        | none => cases h
        | some upper =>
          unfold createTable at h
          dsimp only at h
          split_ifs at h with hexists
          · obtain rfl := Except.ok.inj h
            obtain ⟨p, hp, hname⟩ := List.any_eq_true.1 hexists
            exact ⟨⟨p, hp, of_decide_eq_true hname⟩, .inl rfl⟩
          · obtain rfl := Except.ok.inj h
            exact ⟨⟨_, List.mem_append_right _ (List.mem_singleton_self _), rfl⟩,
              .inr ⟨_, ⟨lower, upper, hrange, rfl⟩, rfl⟩⟩

/-- The same without the names: no partition is lost, and the ones that are new have been created. -/
theorem mem_of_createMonth (h : createMonth zone partitions date = .ok created) :
    partitions ⊆ created ∧ ∀ p ∈ created, p ∈ partitions ∨ ∃ t, date = some t ∧ CreatedAt zone t p := by
  obtain ⟨t, rfl, -, rfl | ⟨p, hp, rfl⟩⟩ := createMonth_cases h
  · exact ⟨List.Subset.refl _, fun _ => .inl⟩
  · refine ⟨List.subset_append_left _ _, fun q hq => ?_⟩
    rcases List.mem_append.1 hq with hold | hnew
    · exact .inl hold
    · exact .inr ⟨t, rfl, List.mem_singleton.1 hnew ▸ hp⟩

/-- What a loop over some dates creates. -/
theorem foldlM_createMonth {dates : List (Option ℤ)}
    (h : dates.foldlM (createMonth zone) partitions = .ok created) :
    partitions ⊆ created ∧
      (∀ date ∈ dates, ∃ t, date = some t ∧ ∃ p ∈ created, p.name = getPartitionName zone (some t)) ∧
      ∀ p ∈ created, p ∈ partitions ∨ ∃ t, some t ∈ dates ∧ CreatedAt zone t p := by
  induction dates generalizing partitions with
  | nil =>
    obtain rfl := Except.ok.inj h
    exact ⟨List.Subset.refl _, fun _ hd => absurd hd List.not_mem_nil, fun _ => .inl⟩
  | cons date dates ih =>
    rw [List.foldlM_cons] at h
    cases hround : createMonth zone partitions date with
    | error e =>
      rw [hround] at h
      cases h
    | ok between =>
      rw [hround] at h
      obtain ⟨hsub, hnames, hcreated⟩ := ih h
      obtain ⟨t, ht, ⟨p, hp, hname⟩, -⟩ := createMonth_cases hround
      obtain ⟨hsub', hcreated'⟩ := mem_of_createMonth hround
      refine ⟨fun q hq => hsub (hsub' hq), ?_, ?_⟩
      · intro d hd
        rcases List.mem_cons.1 hd with rfl | hd
        · exact ⟨t, ht, p, hsub hp, hname⟩
        · exact hnames d hd
      · intro q hq
        rcases hcreated q hq with hold | ⟨t', ht', hq'⟩
        · rcases hcreated' q hold with hold | ⟨t', ht', hq'⟩
          · exact .inl hold
          · exact .inr ⟨t', ht' ▸ List.mem_cons_self, hq'⟩
        · exact .inr ⟨t', List.mem_cons_of_mem _ ht', hq'⟩

/-- What the loop over the months of the existing rows creates, where it ends. East of UTC it does not go back
if all the names are recognized. -/
theorem historicalLoop_created {o : UtcOffset} {currentDate iterDate : Option ℤ} {fuel : ℕ}
    (h : historicalLoop o.zone currentDate fuel iterDate partitions = some (.ok created)) :
    partitions ⊆ created ∧
      (dateLt iterDate currentDate = true →
        ∃ p ∈ created, p.name = getPartitionName o.zone iterDate) ∧
      ∀ p ∈ created, p ∈ partitions ∨ ∃ start t, iterDate = some start ∧
        (0 ≤ o.ms → (∀ q ∈ created, q.Named) → start ≤ t) ∧ dateLt (some t) currentDate = true ∧
          CreatedAt o.zone t p := by
  induction fuel generalizing iterDate partitions with
  | zero => cases h
  | succ fuel ih =>
    rw [historicalLoop] at h
    split_ifs at h with hlt
    · cases hround : createMonth o.zone partitions iterDate with
      | error e =>
        rw [hround] at h
        cases h
      | ok between =>
        rw [hround] at h
        obtain ⟨hsub, -, hcreated⟩ := ih h
        obtain ⟨hsub', hcreated'⟩ := mem_of_createMonth hround
        obtain ⟨t, rfl, ⟨q, hq, hname⟩, -⟩ := createMonth_cases hround
        refine ⟨fun p hp => hsub (hsub' hp), fun _ => ⟨q, hsub hq, hname⟩, fun p hp => ?_⟩
        rcases hcreated p hp with hold | ⟨start, t', hstart, hle, hlt', hp'⟩
        · rcases hcreated' p hold with hold | ⟨t', ht', hp'⟩
          · exact .inl hold
          · obtain rfl := Option.some.inj ht'
            exact .inr ⟨t, t, rfl, fun _ _ => le_rfl, hlt, hp'⟩
        · refine .inr ⟨t, t', rfl, fun heast hnamed => ?_, hlt', hp'⟩
          -- The name of this round is recognized, so that the next one is a month later.
          obtain ⟨u, hparse, -⟩ := hnamed q (hsub hq)
          rw [hname] at hparse
          have hfour := fourDigit_of_parse hparse
          unfold FourDigit at hfour
          rw [o.zone_apply] at hfour
          rw [addMonths_eq (by omega) (by omega) (by omega)] at hstart
          have hnext : t + o.ms < monthStart (monthOf (t + o.ms) + 1) := lt_monthStart_iff.2 (by omega)
          have hle' := hle heast hnamed
          have hstart' := Option.some.inj hstart
          omega
    · obtain rfl := Except.ok.inj (Option.some.inj h)
      exact ⟨List.Subset.refl _, fun hlt' => absurd hlt' hlt, fun _ => .inl⟩

end AlsaqiBackend.Audit
