import Mathlib.Order.Bounds.Defs
import Mathlib.Tactic.IntervalCases
import SecureElement.Proofs.Time.Seconds

/-!
Days counted on the calendar, and full hours.

The seconds of a date are those that are reached if days are counted one by one from the first of January
1970 (`DateTime.toSeconds_eq_iff`). In these seconds a certificate is issued from the last full hour on
(`Authority.isGreatest_of_issuanceTime`).
-/

namespace SecureElement

namespace Calendar

/-- A day of the calendar. -/
structure Day where
  year : Nat
  month : Nat
  day : Nat
  deriving DecidableEq, Repr

namespace Day

/-- The next day: one of the same month, else the first one of the next month, else the first one of the
next year. -/
def next (d : Day) : Day :=
  if d.day < daysInMonth d.year d.month then { d with day := d.day + 1 }
  else if d.month < 12 then { d with month := d.month + 1, day := 1 }
  else ⟨d.year + 1, 1, 1⟩

/-- The day that is reached a number of days after the first of January 1970. -/
def since1970 : Nat → Day
  | 0 => ⟨1970, 1, 1⟩
  | days + 1 => (since1970 days).next

/-- A month of the year, and a day of that month. -/
structure Exists (d : Day) : Prop where
  fromMonth : 1 ≤ d.month
  upToMonth : d.month ≤ 12
  fromDay : 1 ≤ d.day
  upToDay : d.day ≤ daysInMonth d.year d.month

/-- The number of days before a day, counted from the year zero. -/
def number (d : Day) : Nat :=
  daysBeforeYear d.year + (daysBeforeMonth d.year d.month + (d.day - 1))

variable {d e : Day}

theorem daysInMonth_pos (year : Nat) {month : Nat} (from_ : 1 ≤ month) (upTo : month ≤ 12) :
    1 ≤ daysInMonth year month := by
  have february : ∀ leap : Bool, 1 ≤ if leap then 29 else 28 := by decide
  interval_cases month <;> first | exact february _ | exact Nat.le_add_left 1 _

/-- Each day comes after one that exists, and is counted once. -/
theorem Exists.next (h : d.Exists) : d.next.Exists ∧ d.next.number = d.number + 1 := by
  obtain ⟨fromMonth, upToMonth, fromDay, upToDay⟩ := h
  unfold Day.next
  split
  · next within =>
      refine ⟨⟨fromMonth, upToMonth, Nat.le_add_left _ _, within⟩, ?_⟩
      simp only [number]
      omega
  · next full =>
      have last : d.day = daysInMonth d.year d.month := by omega
      have month := daysBeforeMonth_succ d.year fromMonth
      split
      · next early =>
          refine ⟨⟨Nat.le_add_left _ _, early, Nat.le_refl _, ?_⟩, ?_⟩
          · exact daysInMonth_pos d.year (Nat.le_add_left _ _) early
          · simp only [number, month]
            omega
      · next late =>
          have december : d.month = 12 := by omega
          have year := daysBeforeYear_succ d.year
          rw [december, daysBeforeMonth_thirteen] at month
          refine ⟨⟨Nat.le_refl 1, Nat.le_add_left 1 11, Nat.le_refl 1, ?_⟩, ?_⟩
          · exact daysInMonth_pos (d.year + 1) (Nat.le_refl 1) (Nat.le_add_left 1 11)
          · have none : daysBeforeMonth (d.year + 1) 1 = 0 := rfl
            rw [december] at last
            simp only [number, none, december]
            omega

example : next ⟨2000, 2, 28⟩ = ⟨2000, 2, 29⟩ ∧ next ⟨2100, 2, 28⟩ = ⟨2100, 3, 1⟩ := by decide

theorem since1970_exists (days : Nat) :
    (since1970 days).Exists ∧ (since1970 days).number = daysBeforeYear 1970 + days := by
  induction days with
  | zero => exact ⟨⟨by decide, by decide, by decide, by decide⟩, rfl⟩
  | succ days ih =>
      obtain ⟨here, counted⟩ := ih
      obtain ⟨there, next⟩ := here.next
      exact ⟨there, by rw [since1970, next, counted]; rfl⟩

/-- The day of a number, by the year and the month that it falls in. -/
def ofNumber (n : Nat) : Day :=
  let (year, dayOfYear) := yearOfDay 0 n
  let (month, dayOfMonth) := monthOfDay year 1 dayOfYear
  ⟨year, month, dayOfMonth + 1⟩

theorem Exists.ofNumber_number (h : d.Exists) : ofNumber d.number = d := by
  obtain ⟨fromMonth, upToMonth, fromDay, upToDay⟩ := h
  have inside : d.day - 1 < daysInMonth d.year d.month := by omega
  have inYear := place_lt_daysInYear fromMonth upToMonth inside
  have year : yearOfDay 0 d.number = (d.year, daysBeforeMonth d.year d.month + (d.day - 1)) :=
    yearOfDay_eq_iff.2 ⟨Nat.zero_le _, inYear, Nat.zero_add _⟩
  have month : monthOfDay d.year 1 (daysBeforeMonth d.year d.month + (d.day - 1)) =
      (d.month, d.day - 1) :=
    (monthOfDay_eq_iff inYear).2 ⟨fromMonth, upToMonth, inside, rfl⟩
  have day : d.day - 1 + 1 = d.day := by omega
  simp only [ofNumber, year, month, day]

/-- Days are told apart by their numbers. -/
theorem Exists.eq_of_number (first : d.Exists) (second : e.Exists) (same : d.number = e.number) :
    d = e := by
  rw [← first.ofNumber_number, same, second.ofNumber_number]

/-- Counting days reaches the one whose number is the number of days counted. -/
theorem since1970_eq_iff (h : d.Exists) {days : Nat} :
    since1970 days = d ↔ d.number = daysBeforeYear 1970 + days := by
  obtain ⟨there, counted⟩ := since1970_exists days
  constructor
  · rintro rfl
    exact counted
  · intro number
    exact there.eq_of_number h (counted.trans number.symm)

end Day

end Calendar

namespace DateTime

open Calendar

/-- A date lies a number of seconds after the start of 1970: its day is the one that is reached if the full
days are counted, and the time of day is what is left. -/
structure IsAt (d : DateTime) (seconds : Nat) : Prop where
  day : Day.since1970 (seconds / 86400) = ⟨d.year, d.month, d.day⟩
  time : d.hour * 3600 + d.minute * 60 + d.second = seconds % 86400

/-- The seconds of a date are those of the calendar. -/
theorem toSeconds_eq_iff {d : DateTime} {seconds : Nat} : d.toSeconds = seconds ↔ d.IsAt seconds := by
  obtain ⟨early, -, fromMonth, upToMonth, fromDay, upToDay, hour, minute, second⟩ := d.valid
  have there : Day.Exists ⟨d.year, d.month, d.day⟩ := ⟨fromMonth, upToMonth, fromDay, upToDay⟩
  have start := daysBeforeYear_mono early
  have day : (⟨d.year, d.month, d.day⟩ : Day).number = daysBeforeYear 1970 + seconds / 86400 ↔
      daysBeforeYear d.year - daysBeforeYear 1970 + daysBeforeMonth d.year d.month + (d.day - 1) =
        seconds / 86400 := by
    simp only [Day.number]
    omega
  have whole : ∀ days time, time < 86400 →
      (days * 86400 + time = seconds ↔ days = seconds / 86400 ∧ time = seconds % 86400) := by
    intro days time short
    omega
  have time : d.hour * 3600 + d.minute * 60 + d.second < 86400 := by omega
  have counted := whole
    (daysBeforeYear d.year - daysBeforeYear 1970 + daysBeforeMonth d.year d.month + (d.day - 1)) _ time
  rw [← day, ← Day.since1970_eq_iff there, ← Nat.add_assoc, ← Nat.add_assoc] at counted
  constructor
  · intro same
    obtain ⟨here, left⟩ := counted.1 same
    exact ⟨here, left⟩
  · rintro ⟨here, left⟩
    exact counted.2 ⟨here, left⟩

end DateTime

namespace Authority

variable {now later : Moment} {date laterDate : DateTime}

/-- A certificate is issued from the last full hour on. -/
theorem isGreatest_of_issuanceTime (issued : issuanceTime now = .ok date) :
    IsGreatest {hour : Int | 3600 ∣ hour ∧ hour * nanosPerSecond ≤ now} date.toSeconds := by
  obtain ⟨lower, -, rounded⟩ := issuanceTime_eq_ok_iff.1 issued
  have whole : (now.toNat : Int) = now := Int.toNat_of_nonneg lower
  simp only [Moment.seconds, nanosPerSecond] at rounded ⊢
  constructor
  · constructor
    · omega
    · omega
  · rintro hour ⟨⟨count, rfl⟩, before⟩
    omega

theorem lt_of_issuanceTime (issued : issuanceTime now = .ok date) :
    now < (date.toSeconds + 3600) * nanosPerSecond := by
  by_contra late
  have next : (date.toSeconds + 3600 : Int) ≤ date.toSeconds := by
    refine (isGreatest_of_issuanceTime issued).2 ⟨?_, Int.not_lt.1 late⟩
    exact Int.dvd_add (isGreatest_of_issuanceTime issued).1.1 (Int.dvd_refl _)
  omega

theorem toSeconds_le_of_issuanceTime (issued : issuanceTime now = .ok date)
    (issuedLater : issuanceTime later = .ok laterDate) (order : now ≤ later) :
    date.toSeconds ≤ laterDate.toSeconds := by
  obtain ⟨full, before⟩ := (isGreatest_of_issuanceTime issued).1
  have least := (isGreatest_of_issuanceTime issuedLater).2 ⟨full, before.trans order⟩
  exact Int.ofNat_le.1 least

/-- A full hour is left as it is. -/
theorem issuanceTime_toSeconds (issued : issuanceTime now = .ok date) :
    issuanceTime (date.toSeconds * nanosPerSecond) = .ok date := by
  obtain ⟨-, upper, rounded⟩ := issuanceTime_eq_ok_iff.1 issued
  have before := (isGreatest_of_issuanceTime issued).1.2
  have seconds : Moment.seconds (date.toSeconds * nanosPerSecond) = date.toSeconds := by
    rw [Moment.seconds, ← Int.natCast_mul, Int.toNat_natCast]
    exact Nat.mul_div_cancel _ (by decide)
  refine issuanceTime_eq_ok_iff.2 ⟨Int.mul_nonneg (Int.natCast_nonneg _) (Int.natCast_nonneg _),
    before.trans upper, ?_⟩
  rw [seconds, rounded]
  omega

/-- A certificate can be issued from the start of 1970 to the last second of 9999, and not after it by any
part of a second. It is issued from the date whose seconds on the calendar are the greatest multiple of an
hour that is not after the moment: less than an hour before it, later for a later moment, and the same for
the full hour itself. -/
theorem issuanceTime_rounds :
    (∀ (d : DateTime) seconds, d.toSeconds = seconds ↔ d.IsAt seconds) ∧
    (∀ now, (∃ date, issuanceTime now = .ok date) ↔
      0 ≤ now ∧ now ≤ (lastDate.toSeconds * nanosPerSecond : Nat)) ∧
    (∀ now date, issuanceTime now = .ok date →
      IsGreatest {hour : Int | 3600 ∣ hour ∧ hour * nanosPerSecond ≤ now} date.toSeconds ∧
      (date.toSeconds * nanosPerSecond ≤ now ∧ now < (date.toSeconds + 3600) * nanosPerSecond) ∧
      issuanceTime (date.toSeconds * nanosPerSecond) = .ok date) ∧
    ∀ now later date laterDate, issuanceTime now = .ok date → issuanceTime later = .ok laterDate →
      now ≤ later → date.toSeconds ≤ laterDate.toSeconds := by
  refine ⟨fun d seconds => DateTime.toSeconds_eq_iff, fun now => exists_issuanceTime_iff, ?_, ?_⟩
  · intro now date issued
    have greatest := isGreatest_of_issuanceTime issued
    exact ⟨greatest, ⟨greatest.1.2, lt_of_issuanceTime issued⟩, issuanceTime_toSeconds issued⟩
  · intro now later date laterDate issued issuedLater order
    exact toSeconds_le_of_issuanceTime issued issuedLater order

end Authority

end SecureElement
