import SecureElement.Proofs.Time.Hours

/-!
Whole years on the calendar.

A leap year is one with a leap day, by the divisors of the year as well as by the days that February has
(`Calendar.hasLeapDay_iff_exists`), and it is by the same rule that the leap day is kept when years are added
(`DateTime.yearsLater_iff`). Of two dates in different years the one in the earlier year comes first
(`DateTime.toSeconds_lt_of_year_lt`), so that more years lead to a later date
(`Authority.addYears_on_calendar`).
-/

namespace SecureElement

namespace Calendar

/-- A year has a leap day in the Gregorian calendar: every fourth has one, but of the full centuries only
every fourth. -/
def HasLeapDay (year : Nat) : Prop :=
  4 ∣ year ∧ (100 ∣ year → 400 ∣ year)

instance : DecidablePred HasLeapDay := fun year =>
  inferInstanceAs (Decidable (4 ∣ year ∧ (100 ∣ year → 400 ∣ year)))

variable {year : Nat}

theorem isLeap_iff_hasLeapDay : isLeap year = true ↔ HasLeapDay year := by
  rw [isLeap_iff, HasLeapDay]
  omega

/-- The years with a leap day are those with a 29th of February. -/
theorem hasLeapDay_iff_exists : HasLeapDay year ↔ Day.Exists ⟨year, 2, 29⟩ := by
  have february : daysInMonth year 2 = if isLeap year then 29 else 28 := rfl
  rw [← isLeap_iff_hasLeapDay]
  constructor
  · intro leap
    refine ⟨Nat.le_add_left 1 1, Nat.le_add_left 2 10, Nat.le_add_left 1 28, ?_⟩
    rw [february, if_pos leap]
  · rintro ⟨-, -, -, inside⟩
    by_contra common
    rw [february, if_neg common] at inside
    exact Nat.not_succ_le_self 28 inside

end Calendar

namespace DateTime

open Calendar

variable {d later latest : DateTime} {years more : Nat}

/-- The day of a date is one of the days of its year. -/
theorem place_lt (d : DateTime) : daysBeforeMonth d.year d.month + (d.day - 1) < daysInYear d.year := by
  obtain ⟨-, -, fromMonth, upToMonth, fromDay, upToDay, -⟩ := d.valid
  exact place_lt_daysInYear fromMonth upToMonth (by omega)

theorem toSeconds_lt_of_year_lt (earlier : d.year < later.year) : d.toSeconds < later.toSeconds := by
  obtain ⟨from1970, -, -, -, -, -, hour, minute, second⟩ := d.valid
  have start := daysBeforeYear_mono from1970
  have inside := d.place_lt
  have whole := daysBeforeYear_add_le earlier
  -- The day of the first date is over before the first day of the other year.
  have days : daysBeforeYear d.year - daysBeforeYear 1970 + daysBeforeMonth d.year d.month + (d.day - 1) + 1 ≤
      daysBeforeYear later.year - daysBeforeYear 1970 := by
    omega
  unfold toSeconds
  omega

/-- The day of a date in another year: the same one, but the 28th of February for a leap day that is
missing there. -/
def dayIn (d : DateTime) (year : Nat) : Nat :=
  if d.month = 2 ∧ d.day = 29 ∧ ¬ HasLeapDay year then 28 else d.day

theorem yearsLater_iff : d.YearsLater years later ↔ later.year = d.year + years ∧ later.month = d.month ∧
    later.day = d.dayIn later.year ∧ later.hour = d.hour ∧ later.minute = d.minute ∧
    later.second = d.second := by
  simp only [dayIn, ← isLeap_iff_hasLeapDay]
  constructor
  · rintro ⟨year, month, day, hour, minute, second⟩
    exact ⟨year, month, day, hour, minute, second⟩
  · rintro ⟨year, month, day, hour, minute, second⟩
    exact ⟨year, month, day, hour, minute, second⟩

/-- There is one date so many years later. -/
theorem YearsLater.unique (first : d.YearsLater years later) (second : d.YearsLater years latest) :
    later = latest :=
  Option.some.inj ((addYears?_eq_some_iff.2 first).symm.trans (addYears?_eq_some_iff.2 second))

/-- More years lead to a later date. -/
theorem YearsLater.lt_iff (first : d.YearsLater years later) (second : d.YearsLater more latest) :
    years < more ↔ later.toSeconds < latest.toSeconds := by
  have order : ∀ {fewer greater : Nat} {sooner after : DateTime}, d.YearsLater fewer sooner →
      d.YearsLater greater after → fewer < greater → sooner.toSeconds < after.toSeconds := by
    intro fewer greater sooner after here there less
    refine toSeconds_lt_of_year_lt ?_
    rw [here.year, there.year]
    omega
  constructor
  · exact order first second
  · intro before
    rcases Nat.lt_trichotomy years more with less | same | greater
    · exact less
    · subst same
      rw [first.unique second] at before
      exact absurd before (Nat.lt_irrefl _)
    · exact absurd before (Nat.lt_asymm (order second first greater))

/-- In its own year a date is where it was. -/
theorem yearsLater_zero (d : DateTime) : d.YearsLater 0 d := by
  refine ⟨rfl, rfl, ?_, rfl, rfl, rfl⟩
  rw [if_neg]
  rintro ⟨february, last, common⟩
  obtain ⟨-, -, fromMonth, upToMonth, fromDay, upToDay, -⟩ := d.valid
  have there : Day.Exists ⟨d.year, d.month, d.day⟩ := ⟨fromMonth, upToMonth, fromDay, upToDay⟩
  rw [february, last, ← hasLeapDay_iff_exists, ← isLeap_iff_hasLeapDay] at there
  exact common there

theorem YearsLater.le (after : d.YearsLater years later) : d.toSeconds ≤ later.toSeconds := by
  rcases Nat.eq_zero_or_pos years with rfl | some
  · rw [d.yearsLater_zero.unique after]
  · exact Nat.le_of_lt ((d.yearsLater_zero.lt_iff after).1 some)

end DateTime

namespace Authority

open Calendar

theorem exists_addYears_iff {d : DateTime} {years : Nat} :
    (∃ later, addYears d years = .ok later) ↔ d.year + years ≤ 9999 := by
  have refused : (∃ e, addYears d years = .error e) ↔ 9999 < d.year + years := addYears_eq_error_iff
  rw [← Nat.not_lt, ← refused]
  cases addYears d years <;> simp

/-- Years are refused for what they lead to: a year that does not fit its field, or one without dates. -/
theorem addYears_refuses_iff {d : DateTime} {years : Nat} {e : SigningError} :
    addYears d years = .error e ↔ 9999 < d.year + years ∧
      e = .input (if 65535 < d.year + years then .yearsOutOfRange years d.year else .encoding) := by
  have refused : (∃ e, addYears d years = .error e) ↔ 9999 < d.year + years := addYears_eq_error_iff
  have told : ∀ e, addYears d years = .error e →
      e = .input (if 65535 < d.year + years then .yearsOutOfRange years d.year else .encoding) := by
    intro e failed
    unfold addYears at failed
    split at failed
    case isTrue great =>
      cases failed
      rw [if_pos (show 65535 < d.year + years from great)]
    case isFalse small =>
      rw [if_neg (show ¬ 65535 < d.year + years from small)]
      split at failed
      · cases failed
      · cases failed
        rfl
  constructor
  · intro failed
    exact ⟨refused.1 ⟨e, failed⟩, told e failed⟩
  · rintro ⟨beyond, rfl⟩
    obtain ⟨e, failed⟩ := refused.2 beyond
    rw [failed, told e failed]

/-- The day that a leap day becomes is always one that there is. -/
theorem valid_dayIn {d : DateTime} {years : Nat} (within : d.year + years ≤ 9999) :
    Valid (d.year + years) d.month (d.dayIn (d.year + years)) d.hour d.minute d.second := by
  obtain ⟨later, added⟩ := exists_addYears_iff.2 within
  obtain ⟨year, month, day, hour, minute, second⟩ := DateTime.yearsLater_iff.1 (addYears_eq_ok_iff.1 added)
  have valid := later.valid
  rwa [day, year, month, hour, minute, second] at valid

/-- The last leap day before a year that is divisible by a hundred has no anniversary in that year. -/
example : (addYears ⟨2096, 2, 29, 13, 0, 0, by decide⟩ 4).toOption =
    some ⟨2100, 2, 28, 13, 0, 0, by decide⟩ := by decide

/-- Years are added on the calendar. There is a date so many years later exactly if its year is at most 9999,
however great the number of years is; all others are refused. It has the month, the time and the day of the
first date, except that the leap day becomes the 28th of February in a year that has none: the years that have
one are the same by their divisors and by their days, so that there always is such a date. No years lead to
the date itself, none to an earlier date, and more years to a later one. -/
theorem addYears_on_calendar :
    (∀ year, HasLeapDay year ↔ Day.Exists ⟨year, 2, 29⟩) ∧
    (∀ d years, (∃ later, addYears d years = .ok later) ↔ d.year + years ≤ 9999) ∧
    (∀ d years e, addYears d years = .error e ↔ 9999 < d.year + years ∧
      e = .input (if 65535 < d.year + years then .yearsOutOfRange years d.year else .encoding)) ∧
    (∀ (d : DateTime) years, d.year + years ≤ 9999 →
      Valid (d.year + years) d.month (d.dayIn (d.year + years)) d.hour d.minute d.second) ∧
    (∀ d years later, addYears d years = .ok later ↔ later.year = d.year + years ∧ later.month = d.month ∧
      later.day = d.dayIn later.year ∧ later.hour = d.hour ∧ later.minute = d.minute ∧
      later.second = d.second) ∧
    (∀ d, addYears d 0 = .ok d) ∧
    ∀ d years more later latest, addYears d years = .ok later → addYears d more = .ok latest →
      d.toSeconds ≤ later.toSeconds ∧ (years < more ↔ later.toSeconds < latest.toSeconds) := by
  refine ⟨fun year => hasLeapDay_iff_exists, fun d years => exists_addYears_iff,
    fun d years e => addYears_refuses_iff, fun d years => valid_dayIn, ?_, ?_, ?_⟩
  · intro d years later
    rw [addYears_eq_ok_iff, DateTime.yearsLater_iff]
  · intro d
    exact addYears_eq_ok_iff.2 d.yearsLater_zero
  · intro d years more later latest added addedMore
    have first := addYears_eq_ok_iff.1 added
    exact ⟨first.le, first.lt_iff (addYears_eq_ok_iff.1 addedMore)⟩

end Authority

end SecureElement
