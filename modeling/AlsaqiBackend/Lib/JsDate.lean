import AlsaqiBackend.Lib.Digits
import AlsaqiBackend.Lib.Numerals

/-!
# Dates as JavaScript has them

A `Date` is a time value, the milliseconds since the epoch, or invalid. `toISOString` writes a valid
one in the proleptic Gregorian calendar, in UTC. It says everything about the time value
(`isoChars_inj`), and it is made of digits and the punctuation of the format
(`notMem_isoChars`).

The calendar counts days from 1 March of year 0, so that the leap day is the last of its year, and
cuts them into eras of 400 years, centuries, cycles of four years and years.
-/

namespace AlsaqiBackend.Lib

/-- The largest time value of a date. -/
def maxTimeValue : ℤ := 8640000000000000

/-- `new Date(ms)`: the time value, or `none` for an invalid date. -/
def timeClip (ms : ℤ) : Option ℤ := if |ms| ≤ maxTimeValue then some ms else none

/-- Milliseconds in a day. -/
def msPerDay : ℤ := 86400000

/-- A day of the calendar. -/
structure CivilDate where
  year : ℤ
  month : ℤ
  day : ℤ
  deriving DecidableEq, Repr

/-- The date of a day, counted from 1970-01-01. -/
def civilFromDays (days : ℤ) : CivilDate :=
  let z := days + 719468
  let era := z / 146097
  let doe := z % 146097
  let c := min (doe / 36524) 3
  let doc := doe - 36524 * c
  let q := doc / 1461
  let doq := doc - 1461 * q
  let r := min (doq / 365) 3
  let doy := doq - 365 * r
  let mp := (5 * doy + 2) / 153
  let month := if mp < 10 then mp + 3 else mp - 9
  ⟨400 * era + 100 * c + 4 * q + r + (if month ≤ 2 then 1 else 0), month,
    doy - (153 * mp + 2) / 5 + 1⟩

/-- A date determines its day. -/
theorem civilFromDays_inj {m n : ℤ} (h : civilFromDays m = civilFromDays n) : m = n := by
  simp only [civilFromDays, CivilDate.mk.injEq] at h
  obtain ⟨hyear, hmonth, hday⟩ := h
  -- Each of the two days, cut into era, century, cycle, year and day of the year.
  have hcut : ∀ z : ℤ, ∃ era c q r doy : ℤ, era = z / 146097 ∧ c = min (z % 146097 / 36524) 3 ∧
      q = (z % 146097 - 36524 * c) / 1461 ∧
      r = min ((z % 146097 - 36524 * c - 1461 * q) / 365) 3 ∧
      doy = z % 146097 - 36524 * c - 1461 * q - 365 * r ∧
      z = 146097 * era + 36524 * c + 1461 * q + 365 * r + doy ∧
      0 ≤ c ∧ c ≤ 3 ∧ 0 ≤ q ∧ q ≤ 24 ∧ 0 ≤ r ∧ r ≤ 3 ∧ 0 ≤ doy ∧ doy ≤ 365 := by
    intro z
    refine ⟨_, _, _, _, _, rfl, rfl, rfl, rfl, rfl, ?_, ?_, ?_, ?_, ?_, ?_, ?_, ?_, ?_⟩ <;> omega
  obtain ⟨e1, c1, q1, r1, d1, he1, hc1, hq1, hr1, hd1, hz1, b1⟩ := hcut (m + 719468)
  obtain ⟨e2, c2, q2, r2, d2, he2, hc2, hq2, hr2, hd2, hz2, b2⟩ := hcut (n + 719468)
  rw [← he1, ← hc1, ← hq1, ← hr1, ← hd1, ← he2, ← hc2, ← hq2, ← hr2, ← hd2] at hyear
  rw [← hc1, ← hq1, ← hr1, ← hd1, ← hc2, ← hq2, ← hr2, ← hd2] at hmonth hday
  have hmp : (5 * d1 + 2) / 153 = (5 * d2 + 2) / 153 := by
    split_ifs at hmonth <;> omega
  rw [hmp] at hyear hday
  have hdoy : d1 = d2 := by omega
  have hy : 400 * e1 + 100 * c1 + 4 * q1 + r1 = 400 * e2 + 100 * c2 + 4 * q2 + r2 := by omega
  have hr : r1 = r2 := by omega
  have hq : q1 = q2 := by omega
  have hc : c1 = c2 := by omega
  omega

/-- The day of a date, counted from 1970-01-01. -/
def daysFromCivil (date : CivilDate) : ℤ :=
  let y := if date.month ≤ 2 then date.year - 1 else date.year
  let era := y / 400
  let yoe := y % 400
  let mp := (date.month + 9) % 12
  let doy := (153 * mp + 2) / 5 + date.day - 1
  146097 * era + 365 * yoe + yoe / 4 - yoe / 100 + doy - 719468

/-- `new Date(Date.UTC(year, month, 1))`. The month counts from 0 and may lie outside the year. -/
def dateUtcMonth (year month : ℤ) : Option ℤ :=
  -- A year from 0 to 99 is one of the twentieth century.
  let fullYear := if 0 ≤ year ∧ year ≤ 99 then 1900 + year else year
  timeClip (daysFromCivil ⟨fullYear + month / 12, month % 12 + 1, 1⟩ * msPerDay)

/-- A time zone: the milliseconds between local time and UTC at each time value. -/
abbrev TimeZone := ℤ → ℤ

/-- The local calendar date of a time value. -/
def localDate (zone : TimeZone) (t : ℤ) : CivilDate := civilFromDays ((t + zone t) / msPerDay)

/-- `date.getFullYear()`. -/
def getFullYear (zone : TimeZone) (t : ℤ) : ℤ := (localDate zone t).year

/-- `date.getMonth()`, which counts from 0. -/
def getMonth (zone : TimeZone) (t : ℤ) : ℤ := (localDate zone t).month - 1

/-- The bounds of the fields of a date, for a time value in the range of a date. -/
theorem civilFromDays_bounds (days : ℤ) (h : |days| ≤ 100000000) :
    |(civilFromDays days).year| < 1000000 ∧
      0 ≤ (civilFromDays days).month ∧ (civilFromDays days).month < 100 ∧
      0 ≤ (civilFromDays days).day ∧ (civilFromDays days).day < 100 := by
  rw [abs_le] at h
  rw [abs_lt]
  simp only [civilFromDays]
  refine ⟨⟨?_, ?_⟩, ?_, ?_, ?_, ?_⟩ <;> (try split_ifs) <;> omega

/-- The year of the format: four digits, or a sign and six digits for other years. -/
def isoYear (y : ℤ) : List Char :=
  if 0 ≤ y ∧ y ≤ 9999 then fixedDigits 10 4 y.toNat
  else (if y < 0 then '-' else '+') :: fixedDigits 10 6 y.natAbs

/-- A field of the format, in a fixed number of digits. -/
def isoField (w : ℕ) (n : ℤ) : List Char := fixedDigits 10 w n.toNat

/-- `YYYY-MM-DDTHH:mm:ss.sssZ`. -/
def isoChars (t : ℤ) : List Char :=
  let date := civilFromDays (t / msPerDay)
  let ms := t % msPerDay
  isoYear date.year ++ ['-'] ++ isoField 2 date.month ++ ['-'] ++ isoField 2 date.day ++ ['T'] ++
    isoField 2 (ms / 3600000) ++ [':'] ++ isoField 2 (ms / 60000 % 60) ++ [':'] ++
    isoField 2 (ms / 1000 % 60) ++ ['.'] ++ isoField 3 (ms % 1000) ++ ['Z']

/-- `Date.prototype.toISOString` of a time value. -/
def toISOString (t : ℤ) : String := String.ofList (isoChars t)

@[simp]
theorem isoField_length (w : ℕ) (n : ℤ) : (isoField w n).length = w := by simp [isoField]

/-- A field is determined by its digits. -/
theorem isoField_inj {w : ℕ} {m n : ℤ} (hm : 0 ≤ m) (hm' : m < 10 ^ w) (hn : 0 ≤ n)
    (hn' : n < 10 ^ w) (h : isoField w m = isoField w n) : m = n := by
  have hm'' : m.toNat < 10 ^ w := by zify; rwa [Int.toNat_of_nonneg hm]
  have hn'' : n.toNat < 10 ^ w := by zify; rwa [Int.toNat_of_nonneg hn]
  have := fixedDigits_inj (by norm_num) (by norm_num) w hm'' hn'' h
  omega

/-- A year of at most six digits is determined by its text. -/
theorem isoYear_inj {y y' : ℤ} (hy : |y| < 1000000) (hy' : |y'| < 1000000)
    (h : isoYear y = isoYear y') : y = y' := by
  have hlen := congrArg List.length h
  rw [abs_lt] at hy hy'
  unfold isoYear at h hlen
  by_cases h1 : 0 ≤ y ∧ y ≤ 9999
  · by_cases h2 : 0 ≤ y' ∧ y' ≤ 9999
    · rw [if_pos h1, if_pos h2] at h
      have := fixedDigits_inj (by norm_num) (by norm_num) 4 (by omega) (by omega) h
      omega
    · simp [h1, h2] at hlen
  · by_cases h2 : 0 ≤ y' ∧ y' ≤ 9999
    · simp [h1, h2] at hlen
    · rw [if_neg h1, if_neg h2, List.cons.injEq] at h
      obtain ⟨hsign, hdigits⟩ := h
      have habs := fixedDigits_inj (by norm_num) (by norm_num) 6 (by omega) (by omega) hdigits
      have hneg : y < 0 ↔ y' < 0 := by
        by_cases hy0 : y < 0
        · by_cases hy0' : y' < 0
          · exact iff_of_true hy0 hy0'
          · simp [hy0, hy0'] at hsign
        · by_cases hy0' : y' < 0
          · simp [hy0, hy0'] at hsign
          · exact iff_of_false hy0 hy0'
      omega

/-- The text of a date determines its time value. -/
theorem isoChars_inj {t u : ℤ} (ht : |t| ≤ maxTimeValue) (hu : |u| ≤ maxTimeValue)
    (h : isoChars t = isoChars u) : t = u := by
  simp only [maxTimeValue, abs_le] at ht hu
  simp only [isoChars, msPerDay] at h
  have hbt := civilFromDays_bounds (t / 86400000) (by rw [abs_le]; omega)
  have hbu := civilFromDays_bounds (u / 86400000) (by rw [abs_le]; omega)
  -- Every field but the year has a fixed width, so the text is cut from its end.
  obtain ⟨h, -⟩ := List.append_inj' h (by simp)
  obtain ⟨h, hms⟩ := List.append_inj' h (by simp)
  obtain ⟨h, -⟩ := List.append_inj' h (by simp)
  obtain ⟨h, hs⟩ := List.append_inj' h (by simp)
  obtain ⟨h, -⟩ := List.append_inj' h (by simp)
  obtain ⟨h, hmin⟩ := List.append_inj' h (by simp)
  obtain ⟨h, -⟩ := List.append_inj' h (by simp)
  obtain ⟨h, hh⟩ := List.append_inj' h (by simp)
  obtain ⟨h, -⟩ := List.append_inj' h (by simp)
  obtain ⟨h, hday⟩ := List.append_inj' h (by simp)
  obtain ⟨h, -⟩ := List.append_inj' h (by simp)
  obtain ⟨h, hmonth⟩ := List.append_inj' h (by simp)
  obtain ⟨hyear, -⟩ := List.append_inj' h (by simp)
  have hdate : civilFromDays (t / 86400000) = civilFromDays (u / 86400000) := by
    obtain ⟨hy, hm0, hm1, hd0, hd1⟩ := hbt
    obtain ⟨hy', hm0', hm1', hd0', hd1'⟩ := hbu
    have ey := isoYear_inj hy hy' hyear
    have em := isoField_inj hm0 (by simpa using hm1) hm0' (by simpa using hm1') hmonth
    have ed := isoField_inj hd0 (by simpa using hd1) hd0' (by simpa using hd1') hday
    cases hc : civilFromDays (t / 86400000)
    cases hc' : civilFromDays (u / 86400000)
    simp only [hc, hc'] at ey em ed
    rw [ey, em, ed]
  have hdays := civilFromDays_inj hdate
  have eh := isoField_inj (by omega) (by norm_num; omega) (by omega) (by norm_num; omega) hh
  have emin := isoField_inj (by omega) (by norm_num; omega) (by omega) (by norm_num; omega) hmin
  have es := isoField_inj (by omega) (by norm_num; omega) (by omega) (by norm_num; omega) hs
  have ems := isoField_inj (by omega) (by norm_num; omega) (by omega) (by norm_num; omega) hms
  omega

/-! ## The text of a date -/

/-- A time zone by name. The offset to UTC, in seconds, and the name are those of a second since the
epoch. -/
structure NamedZone where
  offset : ℤ → ℤ
  name : ℤ → String

def weekdayNames : List String := ["Sun", "Mon", "Tue", "Wed", "Thu", "Fri", "Sat"]

def monthNames : List String :=
  ["Jan", "Feb", "Mar", "Apr", "May", "Jun", "Jul", "Aug", "Sep", "Oct", "Nov", "Dec"]

/-- `String(date)`, for a time value of the date: `Www Mmm dd yyyy hh:mm:ss GMT±hhmm (name)`. -/
def dateToString (zone : NamedZone) : Option ℤ → String
  | none => "Invalid Date"
  | some t =>
    let offset := 1000 * zone.offset (t / 1000)
    let days := (t + offset) / msPerDay
    let ms := (t + offset) % msPerDay
    let date := civilFromDays days
    let weekday := weekdayNames.getD ((days + 4) % 7).toNat ""
    let month := monthNames.getD (date.month - 1).toNat ""
    let year := (if date.year < 0 then ['-'] else []) ++ padded 4 date.year.natAbs
    let time := isoField 2 (ms / 3600000) ++ [':'] ++ isoField 2 (ms / 60000 % 60) ++ [':'] ++
      isoField 2 (ms / 1000 % 60)
    let difference := (if offset < 0 then '-' else '+') ::
      (isoField 2 (|offset| / 3600000) ++ isoField 2 (|offset| / 60000 % 60))
    String.ofList (weekday.toList ++ [' '] ++ month.toList ++ [' '] ++ isoField 2 date.day ++ [' '] ++
      year ++ [' '] ++ time ++ " GMT".toList ++ difference ++ " (".toList ++
      (zone.name (t / 1000)).toList ++ [')'])

/-- A character that is no digit and no punctuation of the format is not in the text of a date. -/
theorem notMem_isoChars {c : Char} (hc : ∀ d, Nat.digitChar d ≠ c)
    (hp : c ∉ ['-', '+', 'T', ':', '.', 'Z']) (t : ℤ) : c ∉ isoChars t := by
  have hfield : ∀ w n, c ∉ isoField w n := fun w n => notMem_fixedDigits hc _ _ _
  have hyear : ∀ y, c ∉ isoYear y := by
    intro y
    unfold isoYear
    split_ifs
    · exact notMem_fixedDigits hc _ _ _
    · simp only [List.mem_cons, not_or] at hp ⊢
      exact ⟨hp.1, notMem_fixedDigits hc _ _ _⟩
    · simp only [List.mem_cons, not_or] at hp ⊢
      exact ⟨hp.2.1, notMem_fixedDigits hc _ _ _⟩
  simp only [List.mem_cons, List.not_mem_nil, not_or] at hp
  simp [isoChars, hfield, hyear, hp]

example : toISOString 1709164799999 = "2024-02-28T23:59:59.999Z" := by decide

example : toISOString 1709164800000 = "2024-02-29T00:00:00.000Z" := by decide

example : toISOString (-62198755200000) = "-000001-01-01T00:00:00.000Z" := by decide

example : dateToString ⟨fun _ => 10800, fun _ => "Arabian Standard Time"⟩ (some 1768471200123) =
    "Thu Jan 15 2026 13:00:00 GMT+0300 (Arabian Standard Time)" := by decide

example : dateUtcMonth 2024 (-24 + 5) = some 1654041600000 := by decide

end AlsaqiBackend.Lib
