import AlsaqiBackend.Lib.JsDate
import Mathlib.Algebra.Order.SuccPred
import Mathlib.Data.Int.ConditionallyCompleteOrder
import Mathlib.Data.Int.SuccPred
import Mathlib.Order.SuccPred.Archimedean

/-!
# Months

Months are counted from January of the year 0. `monthStart` is the first moment of a month in UTC, and
`monthOf` the month of a time value; a month begins by a time value exactly when it is not later than the
month of it (`monthStart_le_iff`). The year and the month that a date tells in local time are those of one
month (`getFullYear_eq`, `getMonth_eq`), and `dateUtcMonth` is the beginning of a month, but for the years
that it takes for those of the twentieth century (`dateUtcMonth_eq`).

The calendar is cut at March, so that the leap day is the last of its year.
-/

namespace AlsaqiBackend.Lib

/-! ## Days -/

/-- The first day of a month. -/
def monthStartDay (m : ℤ) : ℤ := daysFromCivil ⟨m / 12, m % 12 + 1, 1⟩

/-- The month of a day. -/
def monthOfDay (d : ℤ) : ℤ := 12 * (civilFromDays d).year + ((civilFromDays d).month - 1)

/-- The first day of a month, counted from March. -/
theorem monthStartDay_march (y mp : ℤ) (h0 : 0 ≤ mp) (h1 : mp < 12) :
    monthStartDay (12 * y + mp + 2) =
      365 * y + y / 4 - y / 100 + y / 400 + (153 * mp + 2) / 5 - 719468 := by
  have hmp : ((12 * y + mp + 2) % 12 + 1 + 9) % 12 = mp := by omega
  have hy : (if (12 * y + mp + 2) % 12 + 1 ≤ 2 then (12 * y + mp + 2) / 12 - 1
      else (12 * y + mp + 2) / 12) = y := by
    split_ifs <;> omega
  unfold monthStartDay daysFromCivil
  simp only [hmp]
  rw [hy]
  omega

/-- A month has 28 days or more. -/
theorem monthStartDay_succ (m : ℤ) : monthStartDay m + 28 ≤ monthStartDay (m + 1) := by
  obtain ⟨y, mp, h0, h1, rfl⟩ : ∃ y mp : ℤ, 0 ≤ mp ∧ mp < 12 ∧ m = 12 * y + mp + 2 :=
    ⟨(m - 2) / 12, (m - 2) % 12, by omega, by omega, by omega⟩
  rw [monthStartDay_march y mp h0 h1]
  by_cases hmp : mp = 11
  · have hnext : 12 * y + mp + 2 + 1 = 12 * (y + 1) + 0 + 2 := by omega
    rw [hnext, monthStartDay_march (y + 1) 0 (by omega) (by omega)]
    omega
  · have hnext : 12 * y + mp + 2 + 1 = 12 * y + (mp + 1) + 2 := by omega
    rw [hnext, monthStartDay_march y (mp + 1) (by omega) (by omega)]
    omega

/-- A day stands between the first days of its month and the next. -/
theorem monthOfDay_spec (d : ℤ) :
    monthStartDay (monthOfDay d) ≤ d ∧ d < monthStartDay (monthOfDay d + 1) := by
  -- The era, the century, the cycle, the year, the day of the year and the month, from March.
  obtain ⟨era, c, q, r, doy, mp, hera, hc, hq, hr, hdoy, hmp, hz⟩ : ∃ era c q r doy mp : ℤ,
      era = (d + 719468) / 146097 ∧ c = min ((d + 719468) % 146097 / 36524) 3 ∧
      q = ((d + 719468) % 146097 - 36524 * c) / 1461 ∧
      r = min (((d + 719468) % 146097 - 36524 * c - 1461 * q) / 365) 3 ∧
      doy = (d + 719468) % 146097 - 36524 * c - 1461 * q - 365 * r ∧
      mp = (5 * doy + 2) / 153 ∧
      d + 719468 = 146097 * era + 36524 * c + 1461 * q + 365 * r + doy := by
    refine ⟨_, _, _, _, _, _, rfl, rfl, rfl, rfl, rfl, rfl, by omega⟩
  have hbounds : 0 ≤ c ∧ c ≤ 3 ∧ 0 ≤ q ∧ q ≤ 24 ∧ 0 ≤ r ∧ r ≤ 3 ∧ 0 ≤ doy ∧ doy ≤ 365 := by omega
  have hleap : doy = 365 → r = 3 ∧ (q = 24 → c = 3) := by omega
  have hmonth : monthOfDay d = 12 * (400 * era + 100 * c + 4 * q + r) + mp + 2 := by
    unfold monthOfDay civilFromDays
    simp only [← hera, ← hc, ← hq, ← hr, ← hdoy, ← hmp]
    split_ifs <;> omega
  clear hera hc hq hr hdoy
  have h4 : (400 * era + 100 * c + 4 * q + r) / 4 = 100 * era + 25 * c + q := by omega
  have h100 : (400 * era + 100 * c + 4 * q + r) / 100 = 4 * era + c := by omega
  have h400 : (400 * era + 100 * c + 4 * q + r) / 400 = era := by omega
  rw [hmonth, monthStartDay_march _ mp (by omega) (by omega)]
  refine ⟨by omega, ?_⟩
  by_cases hlast : mp = 11
  · have hnext : 12 * (400 * era + 100 * c + 4 * q + r) + mp + 2 + 1 =
        12 * (400 * era + 100 * c + 4 * q + r + 1) + 0 + 2 := by omega
    rw [hnext, monthStartDay_march _ 0 (by omega) (by omega)]
    omega
  · have hnext : 12 * (400 * era + 100 * c + 4 * q + r) + mp + 2 + 1 =
        12 * (400 * era + 100 * c + 4 * q + r) + (mp + 1) + 2 := by omega
    rw [hnext, monthStartDay_march _ (mp + 1) (by omega) (by omega)]
    omega

theorem monthStartDay_strictMono : StrictMono monthStartDay :=
  strictMono_int_of_lt_succ fun m => by
    have hstep := monthStartDay_succ m
    omega

theorem monthStartDay_le_iff {m d : ℤ} : monthStartDay m ≤ d ↔ m ≤ monthOfDay d := by
  obtain ⟨hlower, hupper⟩ := monthOfDay_spec d
  constructor
  · intro h
    by_contra hlt
    have hnext : monthStartDay (monthOfDay d + 1) ≤ monthStartDay m :=
      monthStartDay_strictMono.monotone (by omega)
    omega
  · intro h
    exact (monthStartDay_strictMono.monotone h).trans hlower

/-! ## Time values -/

/-- The first moment of a month. -/
def monthStart (m : ℤ) : ℤ := monthStartDay m * msPerDay

/-- The month of a time value. -/
def monthOf (t : ℤ) : ℤ := monthOfDay (t / msPerDay)

variable {m m' t t' o : ℤ}

theorem monthStart_le_iff : monthStart m ≤ t ↔ m ≤ monthOf t := by
  unfold monthStart monthOf
  rw [← monthStartDay_le_iff]
  unfold msPerDay
  omega

theorem lt_monthStart_iff : t < monthStart m ↔ monthOf t < m := by
  rw [← not_le, monthStart_le_iff, not_le]

theorem monthStart_strictMono : StrictMono monthStart := fun m m' h => by
  have hday := monthStartDay_strictMono h
  unfold monthStart msPerDay
  omega

theorem monthStart_le_monthStart_iff : monthStart m ≤ monthStart m' ↔ m ≤ m' :=
  monthStart_strictMono.le_iff_le

theorem monthStart_lt_monthStart_iff : monthStart m < monthStart m' ↔ m < m' :=
  monthStart_strictMono.lt_iff_lt

theorem monthOf_mono (h : t ≤ t') : monthOf t ≤ monthOf t' :=
  monthStart_le_iff.1 ((monthStart_le_iff.2 le_rfl).trans h)

/-- A month has 28 days or more. -/
theorem monthStart_succ (m : ℤ) : monthStart m + 28 * msPerDay ≤ monthStart (m + 1) := by
  have hday := monthStartDay_succ m
  unfold monthStart msPerDay
  omega

/-- The time values of a month. -/
theorem monthOf_eq_iff : monthOf t = m ↔ monthStart m ≤ t ∧ t < monthStart (m + 1) := by
  rw [monthStart_le_iff, lt_monthStart_iff]
  omega

/-- A zone east of UTC tells the same month at the first moment of it. -/
theorem monthOf_monthStart_add (h : 0 ≤ o) (h' : o < 28 * msPerDay) : monthOf (monthStart m + o) = m := by
  have hsucc := monthStart_succ m
  exact monthOf_eq_iff.2 ⟨by omega, by omega⟩

/-- A zone west of UTC tells the month before. -/
theorem monthOf_monthStart_sub (h : o < 0) (h' : -(28 * msPerDay) ≤ o) :
    monthOf (monthStart m + o) = m - 1 := by
  have hsucc := monthStart_succ (m - 1)
  rw [Int.sub_add_cancel] at hsucc
  exact monthOf_eq_iff.2 ⟨by omega, by rw [Int.sub_add_cancel]; omega⟩

theorem monthOf_monthStart : monthOf (monthStart m) = m := by
  have h := monthOf_monthStart_add (m := m) le_rfl (by decide)
  rwa [Int.add_zero] at h

/-! ## Dates -/

/-- The month of a day is one of its year. -/
theorem civilFromDays_month (d : ℤ) : 1 ≤ (civilFromDays d).month ∧ (civilFromDays d).month ≤ 12 := by
  unfold civilFromDays
  dsimp only
  split_ifs <;> omega

/-- The year that a date tells is that of its local month. -/
theorem getFullYear_eq (zone : TimeZone) (t : ℤ) : getFullYear zone t = monthOf (t + zone t) / 12 := by
  have hmonth := civilFromDays_month ((t + zone t) / msPerDay)
  unfold getFullYear localDate monthOf monthOfDay
  omega

/-- And so is the month that it tells. -/
theorem getMonth_eq (zone : TimeZone) (t : ℤ) : getMonth zone t = monthOf (t + zone t) % 12 := by
  have hmonth := civilFromDays_month ((t + zone t) / msPerDay)
  unfold getMonth localDate monthOf monthOfDay
  omega

/-- But for the years that stand for those of the twentieth century, a date is made of its month. -/
theorem dateUtcMonth_eq {y month : ℤ} (h : y < 0 ∨ 99 < y) :
    dateUtcMonth y month = timeClip (monthStart (12 * y + month)) := by
  have hyear : (12 * y + month) / 12 = y + month / 12 := by omega
  have hmod : (12 * y + month) % 12 = month % 12 := by omega
  unfold dateUtcMonth monthStart monthStartDay
  dsimp only
  rw [if_neg (by omega), hyear, hmod]

/-- What it is made of is a month all the same. -/
theorem eq_monthStart_of_dateUtcMonth {y month : ℤ} (h : dateUtcMonth y month = some t) :
    t = monthStart (monthOf t) := by
  obtain ⟨year, hyear⟩ : ∃ year : ℤ, (if 0 ≤ y ∧ y ≤ 99 then 1900 + y else y) = year := ⟨_, rfl⟩
  have hdiv : (12 * year + month) / 12 = year + month / 12 := by omega
  have hmod : (12 * year + month) % 12 = month % 12 := by omega
  have hstart : t = monthStart (12 * year + month) := by
    unfold dateUtcMonth timeClip at h
    dsimp only at h
    rw [hyear] at h
    split_ifs at h
    unfold monthStart monthStartDay
    rw [hdiv, hmod]
    exact (Option.some.inj h).symm
  rw [hstart, monthOf_monthStart]

/-- Where its year stands for one of the twentieth century, a date is not later than the year 2000. -/
theorem le_of_dateUtcMonth {y month : ℤ} (h : dateUtcMonth y month = some t) (hmonth : month ≤ 12) :
    t ≤ monthStart (12 * y + month) ∨ t ≤ monthStart (12 * 2000) := by
  by_cases hy : 0 ≤ y ∧ y ≤ 99
  · right
    have hfull : dateUtcMonth y month = dateUtcMonth (1900 + y) month := by
      unfold dateUtcMonth
      dsimp only
      rw [if_pos hy, if_neg (by omega)]
    rw [hfull, dateUtcMonth_eq (by omega)] at h
    unfold timeClip at h
    split_ifs at h
    rw [← Option.some.inj h, monthStart_le_monthStart_iff]
    omega
  · left
    rw [dateUtcMonth_eq (by omega)] at h
    unfold timeClip at h
    split_ifs at h
    rw [← Option.some.inj h]

/-- The months of the years that are written with four digits begin at a date, and so do later ones. -/
theorem timeClip_monthStart (h : 0 ≤ m) (h' : m ≤ 130000) : timeClip (monthStart m) = some (monthStart m) := by
  have hlower : monthStart 0 ≤ monthStart m := monthStart_le_monthStart_iff.2 h
  have hupper : monthStart m ≤ monthStart 130000 := monthStart_le_monthStart_iff.2 h'
  have hfirst : monthStart 0 = -62167219200000 := by decide
  have hlast : monthStart 130000 ≤ 300000000000000 := by decide
  unfold timeClip maxTimeValue
  rw [if_pos (by rw [abs_le]; omega)]

end AlsaqiBackend.Lib
