import SecureElement.Proofs.Time.Calendar

/-!
Seconds and dates tell the same moments.

A day falls in the one year and in the one month that it lies within (`Calendar.yearOfDay_eq_iff`,
`Calendar.monthOfDay_eq_iff`), so that each date is the one of its own seconds
(`DateTime.ofSeconds?_eq_some_iff`). With that, the period of a certificate can be said in numbers: it
starts with the last full hour (`Authority.issuanceTime_eq_ok_iff`) and ends at the same place of a
later year (`Authority.addYears_eq_ok_iff`).
-/

namespace SecureElement

namespace Calendar

/-! ### Years -/

theorem daysBeforeYear_add_le {first second : Nat} (before : first < second) :
    daysBeforeYear first + daysInYear first ≤ daysBeforeYear second := by
  rw [← daysBeforeYear_succ]
  exact daysBeforeYear_mono before

/-- A day falls in the one year that it lies within. -/
theorem yearOfDay_eq_iff {start day year place : Nat} :
    yearOfDay start day = (year, place) ↔
      start ≤ year ∧ place < daysInYear year ∧
        daysBeforeYear start + day = daysBeforeYear year + place := by
  obtain ⟨late, within, sum⟩ := yearOfDay_spec start day
  constructor
  · intro found
    rw [found] at late within sum
    exact ⟨late, within, sum⟩
  · rintro ⟨late', within', sum'⟩
    generalize yearOfDay start day = found at late within sum
    obtain ⟨foundYear, foundPlace⟩ := found
    dsimp only at late within sum
    -- Of two years that a day lies within, neither ends before the other starts.
    have notBefore : ¬ foundYear < year := by
      intro before
      have ends := daysBeforeYear_add_le before
      omega
    have notAfter : ¬ year < foundYear := by
      intro after
      have ends := daysBeforeYear_add_le after
      omega
    have same : foundYear = year := by omega
    subst same
    have place_eq : foundPlace = place := by omega
    rw [place_eq]

/-! ### Months -/

theorem daysBeforeMonth_succ (year : Nat) {month : Nat} (first : 1 ≤ month) :
    daysBeforeMonth year (month + 1) = daysBeforeMonth year month + daysInMonth year month := by
  obtain ⟨earlier, rfl⟩ := Nat.exists_eq_add_of_le' first
  simp only [daysBeforeMonth, Nat.add_sub_cancel, List.range_succ, List.foldl_append, List.foldl_cons,
    List.foldl_nil]

theorem daysBeforeMonth_mono (year : Nat) {first second : Nat} (from_ : 1 ≤ first)
    (later : first ≤ second) : daysBeforeMonth year first ≤ daysBeforeMonth year second := by
  induction later with
  | refl => exact Nat.le_refl _
  | @step month later ih =>
      rw [daysBeforeMonth_succ year (Nat.le_trans from_ later)]
      omega

theorem daysBeforeMonth_add_le (year : Nat) {first second : Nat} (from_ : 1 ≤ first)
    (before : first < second) :
    daysBeforeMonth year first + daysInMonth year first ≤ daysBeforeMonth year second := by
  rw [← daysBeforeMonth_succ year from_]
  exact daysBeforeMonth_mono year (by omega) before

theorem daysBeforeMonth_thirteen (year : Nat) : daysBeforeMonth year 13 = daysInYear year := by
  unfold daysInYear
  by_cases leap : isLeap year = true
  · simp [daysBeforeMonth, List.range_succ, daysInMonth, leap]
  · simp [daysBeforeMonth, List.range_succ, daysInMonth, leap]

/-- The days before the month that is found and the place in it make up the day. -/
theorem monthOfDay_sum (year month day : Nat) (first : 1 ≤ month) :
    1 ≤ (monthOfDay year month day).1 ∧
      daysBeforeMonth year month + day =
        daysBeforeMonth year (monthOfDay year month day).1 + (monthOfDay year month day).2 := by
  induction month, day using monthOfDay.induct year with
  | case1 month day here =>
      rw [monthOfDay, if_pos here]
      exact ⟨first, rfl⟩
  | case2 month day beyond ih =>
      rw [monthOfDay, if_neg beyond]
      obtain ⟨from_, sum⟩ := ih (by omega)
      have succ := daysBeforeMonth_succ year first
      exact ⟨from_, by omega⟩

/-- A day of a year falls in the one month that it lies within. -/
theorem monthOfDay_eq_iff {year day month place : Nat} (within : day < daysInYear year) :
    monthOfDay year 1 day = (month, place) ↔
      1 ≤ month ∧ month ≤ 12 ∧ place < daysInMonth year month ∧
        day = daysBeforeMonth year month + place := by
  obtain ⟨from_, sum⟩ := monthOfDay_sum year 1 day (Nat.le_refl 1)
  rw [← daysOfLastMonths_twelve] at within
  obtain ⟨-, upTo, inside⟩ := monthOfDay_spec year 11 day (by decide) within
  simp only [Nat.reduceSub] at upTo inside
  have none : daysBeforeMonth year 1 = 0 := rfl
  rw [none, Nat.zero_add] at sum
  constructor
  · intro found
    rw [found] at from_ upTo inside sum
    exact ⟨from_, upTo, inside, sum⟩
  · rintro ⟨from', -, inside', sum'⟩
    generalize monthOfDay year 1 day = found at from_ upTo inside sum
    obtain ⟨foundMonth, foundPlace⟩ := found
    dsimp only at from_ upTo inside sum
    have notBefore : ¬ foundMonth < month := by
      intro before
      have ends := daysBeforeMonth_add_le year from_ before
      omega
    have notAfter : ¬ month < foundMonth := by
      intro after
      have ends := daysBeforeMonth_add_le year from' after
      omega
    have same : foundMonth = month := by omega
    subst same
    have place_eq : foundPlace = place := by omega
    rw [place_eq]

/-- A day of a month is one of the days of its year. -/
theorem place_lt_daysInYear {year month place : Nat} (from_ : 1 ≤ month) (upTo : month ≤ 12)
    (inside : place < daysInMonth year month) :
    daysBeforeMonth year month + place < daysInYear year := by
  have ends := daysBeforeMonth_add_le year from_ (show month < 13 by omega)
  rw [daysBeforeMonth_thirteen] at ends
  omega

end Calendar

namespace DateTime

open Calendar

theorem make?_eq_some_iff {year month day hour minute second : Nat} {d : DateTime} :
    make? year month day hour minute second = some d ↔
      d.year = year ∧ d.month = month ∧ d.day = day ∧ d.hour = hour ∧ d.minute = minute ∧
        d.second = second := by
  constructor
  · intro made
    obtain ⟨valid, made⟩ := Option.dite_none_right_eq_some.1 made
    cases made
    exact ⟨rfl, rfl, rfl, rfl, rfl, rfl⟩
  · rintro ⟨rfl, rfl, rfl, rfl, rfl, rfl⟩
    exact dif_pos d.valid

/-- The date of a number of seconds is the one whose seconds these are. -/
theorem ofSeconds?_eq_some_iff {seconds : Nat} {d : DateTime} :
    ofSeconds? seconds = some d ↔ d.toSeconds = seconds := by
  obtain ⟨early, -, fromMonth, upToMonth, fromDay, upToDay, hour, minute, second⟩ := d.valid
  have start := daysBeforeYear_mono early
  unfold ofSeconds?
  generalize found : yearOfDay 1970 (seconds / 86400) = inYear
  obtain ⟨year, dayOfYear⟩ := inYear
  obtain ⟨-, within, days⟩ := yearOfDay_eq_iff.1 found
  dsimp only
  generalize foundMonth : monthOfDay year 1 dayOfYear = inMonth
  obtain ⟨month, dayOfMonth⟩ := inMonth
  obtain ⟨-, -, -, place⟩ := (monthOfDay_eq_iff within).1 foundMonth
  dsimp only
  rw [make?_eq_some_iff]
  constructor
  · rintro ⟨sameYear, sameMonth, sameDay, sameHour, sameMinute, sameSecond⟩
    unfold toSeconds
    rw [sameYear] at start
    rw [sameYear, sameMonth]
    omega
  · intro counted
    have inside : d.day - 1 < daysInMonth d.year d.month := by omega
    have inYear := place_lt_daysInYear fromMonth upToMonth inside
    have day : seconds / 86400 = daysBeforeYear d.year - daysBeforeYear 1970 +
        (daysBeforeMonth d.year d.month + (d.day - 1)) := by
      unfold toSeconds at counted
      omega
    have sameYear : (year, dayOfYear) = (d.year, daysBeforeMonth d.year d.month + (d.day - 1)) := by
      rw [← found, yearOfDay_eq_iff]
      exact ⟨early, inYear, by omega⟩
    cases sameYear
    have sameMonth : (month, dayOfMonth) = (d.month, d.day - 1) := by
      rw [← foundMonth, monthOfDay_eq_iff within]
      exact ⟨fromMonth, upToMonth, inside, rfl⟩
    cases sameMonth
    have time : seconds % 86400 = d.hour * 3600 + d.minute * 60 + d.second := by
      unfold toSeconds at counted
      omega
    refine ⟨rfl, rfl, ?_, ?_, ?_, ?_⟩ <;> omega

/-- Dates are told apart by their seconds. -/
theorem toSeconds_injective {first second : DateTime} (same : first.toSeconds = second.toSeconds) :
    first = second := by
  have found := ofSeconds?_eq_some_iff.2 same
  rw [ofSeconds?_eq_some_iff.2 rfl] at found
  exact (Option.some.inj found).symm

theorem toSeconds_startOfHour (d : DateTime) :
    d.startOfHour.toSeconds = d.toSeconds / 3600 * 3600 := by
  obtain ⟨-, -, -, -, -, -, -, minute, second⟩ := d.valid
  simp only [startOfHour, toSeconds]
  omega

/-- A date is at the same place of a year a number of years later. The leap day becomes the last day of
February in a year that has none. -/
structure YearsLater (years : Nat) (d later : DateTime) : Prop where
  year : later.year = d.year + years
  month : later.month = d.month
  day : later.day = if d.month = 2 ∧ d.day = 29 ∧ ¬ isLeap later.year then 28 else d.day
  hour : later.hour = d.hour
  minute : later.minute = d.minute
  second : later.second = d.second

theorem addYears?_eq_some_iff {d later : DateTime} {years : Nat} :
    d.addYears? years = some later ↔ d.YearsLater years later := by
  unfold addYears?
  dsimp only
  rw [make?_eq_some_iff]
  constructor
  · rintro ⟨year, month, day, hour, minute, second⟩
    refine ⟨year, month, ?_, hour, minute, second⟩
    rw [day, year]
  · rintro ⟨year, month, day, hour, minute, second⟩
    refine ⟨year, month, ?_, hour, minute, second⟩
    rw [day, year]

end DateTime

namespace Authority

/-- The seconds of a moment, without the fraction. -/
def Moment.seconds (now : Moment) : Nat := now.toNat / nanosPerSecond

theorem Moment.seconds_le {now : Moment} (upper : now ≤ (lastSecond * nanosPerSecond : Nat)) :
    now.seconds ≤ lastSecond := by
  have whole : now.toNat ≤ lastSecond * nanosPerSecond := Int.toNat_le.2 upper
  exact Nat.div_le_of_le_mul (by rw [Nat.mul_comm]; exact whole)

/-- A certificate is issued from the last full hour on. -/
theorem issuanceTime_eq_ok_iff {now : Moment} {date : DateTime} :
    issuanceTime now = .ok date ↔
      0 ≤ now ∧ now ≤ (lastSecond * nanosPerSecond : Nat) ∧
        date.toSeconds = now.seconds / 3600 * 3600 := by
  unfold issuanceTime
  by_cases range : 0 ≤ now ∧ now ≤ (lastSecond * nanosPerSecond : Nat)
  · obtain ⟨found, dated⟩ := DateTime.exists_ofSeconds? (Moment.seconds_le range.2)
    have seconds := DateTime.ofSeconds?_eq_some_iff.1 dated
    have hour := found.toSeconds_startOfHour
    rw [seconds] at hour
    rw [Moment.seconds] at dated
    rw [if_pos range, dated]
    constructor
    · intro issued
      cases issued
      exact ⟨range.1, range.2, hour⟩
    · rintro ⟨-, -, rounded⟩
      exact congrArg Except.ok (DateTime.toSeconds_injective (hour.trans rounded.symm))
  · rw [if_neg range]
    constructor
    · intro issued
      cases issued
    · rintro ⟨lower, upper, -⟩
      exact absurd ⟨lower, upper⟩ range

/-- The last date. -/
def lastDate : DateTime := ⟨9999, 12, 31, 23, 59, 59, by decide⟩

theorem toSeconds_lastDate : lastDate.toSeconds = lastSecond := by decide

/-- A certificate can be issued up to the last date, and not after it by any part of a second. -/
theorem exists_issuanceTime_iff {now : Moment} :
    (∃ date, issuanceTime now = .ok date) ↔
      0 ≤ now ∧ now ≤ (lastDate.toSeconds * nanosPerSecond : Nat) := by
  rw [toSeconds_lastDate]
  constructor
  · rintro ⟨date, issued⟩
    obtain ⟨lower, upper, -⟩ := issuanceTime_eq_ok_iff.1 issued
    exact ⟨lower, upper⟩
  · rintro ⟨lower, upper⟩
    cases issued : issuanceTime now with
    | ok date => exact ⟨date, rfl⟩
    | error e =>
        have outside := issuanceTime_eq_error_iff.1 ⟨e, issued⟩
        exact absurd outside (not_or.2 ⟨Int.not_lt.2 lower, Int.not_lt.2 upper⟩)

/-- A certificate ends at the same place of a later year. -/
theorem addYears_eq_ok_iff {date later : DateTime} {years : Nat} :
    addYears date years = .ok later ↔ date.YearsLater years later := by
  unfold addYears
  rw [← DateTime.addYears?_eq_some_iff]
  by_cases beyond : lastYear < date.year + years
  · rw [if_pos beyond]
    constructor
    · intro added
      cases added
    · intro added
      have year := (DateTime.addYears?_eq_some_iff.1 added).year
      have last := later.valid.2.1
      simp only [lastYear] at beyond
      omega
  · rw [if_neg beyond]
    cases date.addYears? years with
    | none =>
        constructor
        · intro added
          cases added
        · intro added
          cases added
    | some other =>
        constructor
        · intro added
          cases added
          rfl
        · intro added
          cases added
          rfl

end Authority

end SecureElement
