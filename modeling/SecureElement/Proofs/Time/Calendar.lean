import Mathlib.Tactic.ByContra
import SecureElement.Authority.Validity

/-!
Seconds that have a date, and years that can be added.

Every second from the start of 1970 to the last of 9999 has a date (`DateTime.exists_ofSeconds?`), and a
certificate can be issued at any moment in between (`issuanceTime_eq_error_iff`). A number of years can
be added to a date exactly if the year that is reached has four digits (`addYears_eq_error_iff`).
-/

namespace SecureElement

namespace Calendar

/-! ### Years -/

theorem daysBeforeYear_add (year : Nat) :
    daysBeforeYear year + (year + 99) / 100 =
      365 * year + (year + 3) / 4 + (year + 399) / 400 := by
  unfold daysBeforeYear
  omega

theorem isLeap_iff {year : Nat} :
    isLeap year = true ↔ (year % 4 = 0 ∧ year % 100 ≠ 0) ∨ year % 400 = 0 := by
  simp [isLeap]

theorem daysBeforeYear_succ (year : Nat) :
    daysBeforeYear (year + 1) = daysBeforeYear year + daysInYear year := by
  have here := daysBeforeYear_add year
  have next := daysBeforeYear_add (year + 1)
  -- Each of the three quotients grows by one in its years.
  have fours : (year + 1 + 3) / 4 = (year + 3) / 4 + if year % 4 = 0 then 1 else 0 := by
    split <;> omega
  have hundreds : (year + 1 + 99) / 100 = (year + 99) / 100 + if year % 100 = 0 then 1 else 0 := by
    split <;> omega
  have fourHundreds :
      (year + 1 + 399) / 400 = (year + 399) / 400 + if year % 400 = 0 then 1 else 0 := by
    split <;> omega
  rw [fours, hundreds, fourHundreds] at next
  generalize (year + 3) / 4 = a at here next
  generalize (year + 99) / 100 = b at here next
  generalize (year + 399) / 400 = c at here next
  unfold daysInYear
  by_cases other : year % 400 = 0
  · have four : year % 4 = 0 := by omega
    have hundred : year % 100 = 0 := by omega
    rw [if_pos four, if_pos hundred, if_pos other] at next
    rw [if_pos (isLeap_iff.2 (.inr other))]
    omega
  · by_cases hundred : year % 100 = 0
    · have four : year % 4 = 0 := by omega
      have common : ¬ isLeap year = true := by simp [isLeap_iff, other, hundred]
      rw [if_pos four, if_pos hundred, if_neg other] at next
      rw [if_neg common]
      omega
    · by_cases four : year % 4 = 0
      · rw [if_pos four, if_neg hundred, if_neg other] at next
        rw [if_pos (isLeap_iff.2 (.inl ⟨four, hundred⟩))]
        omega
      · have common : ¬ isLeap year = true := by simp [isLeap_iff, other, four]
        rw [if_neg four, if_neg hundred, if_neg other] at next
        rw [if_neg common]
        omega

theorem daysBeforeYear_mono {first second : Nat} (later : first ≤ second) :
    daysBeforeYear first ≤ daysBeforeYear second := by
  induction later with
  | refl => exact Nat.le_refl _
  | step _ ih =>
      rw [daysBeforeYear_succ]
      omega

/-- A day falls in a year, and its place there is one of the days of that year. -/
theorem yearOfDay_spec (year day : Nat) :
    year ≤ (yearOfDay year day).1 ∧
      (yearOfDay year day).2 < daysInYear (yearOfDay year day).1 ∧
      daysBeforeYear year + day =
        daysBeforeYear (yearOfDay year day).1 + (yearOfDay year day).2 := by
  induction year, day using yearOfDay.induct with
  | case1 year day within =>
      rw [yearOfDay, if_pos within]
      exact ⟨Nat.le_refl _, within, rfl⟩
  | case2 year day beyond ih =>
      rw [yearOfDay, if_neg beyond]
      obtain ⟨later, within, sum⟩ := ih
      have succ := daysBeforeYear_succ year
      exact ⟨by omega, within, by omega⟩

/-! ### Months -/

/-- The number of days in the last months of a year. -/
def daysOfLastMonths (year : Nat) : (months : Nat) → Nat
  | 0 => 0
  | months + 1 => daysInMonth year (12 - months) + daysOfLastMonths year months

theorem daysOfLastMonths_twelve (year : Nat) : daysOfLastMonths year 12 = daysInYear year := by
  unfold daysInYear
  by_cases leap : isLeap year = true
  · simp [daysOfLastMonths, daysInMonth, leap]
  · simp [daysOfLastMonths, daysInMonth, leap]

/-- A day of the last months of a year falls in one of them. -/
theorem monthOfDay_spec (year months day : Nat) (within : months < 12)
    (short : day < daysOfLastMonths year (months + 1)) :
    12 - months ≤ (monthOfDay year (12 - months) day).1 ∧
      (monthOfDay year (12 - months) day).1 ≤ 12 ∧
      (monthOfDay year (12 - months) day).2 <
        daysInMonth year (monthOfDay year (12 - months) day).1 := by
  induction months generalizing day with
  | zero =>
      have here : day < daysInMonth year 12 := by simpa [daysOfLastMonths] using short
      rw [monthOfDay, if_pos (.inr (Nat.le_refl _))]
      exact ⟨Nat.le_refl _, Nat.le_refl _, here⟩
  | succ months ih =>
      rw [monthOfDay]
      by_cases here : day < daysInMonth year (12 - (months + 1))
      · rw [if_pos (.inl here)]
        exact ⟨Nat.le_refl _, by omega, here⟩
      · have other : ¬ (day < daysInMonth year (12 - (months + 1)) ∨ 12 ≤ 12 - (months + 1)) := by
          omega
        have next : 12 - (months + 1) + 1 = 12 - months := by omega
        rw [if_neg other, next]
        rw [daysOfLastMonths] at short
        obtain ⟨later, bound, inside⟩ := ih (day - daysInMonth year (12 - (months + 1))) (by omega)
          (by omega)
        exact ⟨by omega, bound, inside⟩

end Calendar

open Calendar

/-- Every second up to the last one of 9999 has a date. -/
theorem DateTime.exists_ofSeconds? {seconds : Nat} (early : seconds ≤ Authority.lastSecond) :
    ∃ date, ofSeconds? seconds = some date := by
  obtain ⟨late, day, sum⟩ := yearOfDay_spec 1970 (seconds / 86400)
  have bound : (yearOfDay 1970 (seconds / 86400)).1 ≤ 9999 := by
    by_contra beyond
    have least := daysBeforeYear_mono (show 10000 ≤ (yearOfDay 1970 (seconds / 86400)).1 by omega)
    have first : daysBeforeYear 10000 = 3652425 := by decide
    have start : daysBeforeYear 1970 = 719528 := by decide
    simp only [Authority.lastSecond] at early
    omega
  rw [← daysOfLastMonths_twelve] at day
  obtain ⟨from_, upTo, inside⟩ := monthOfDay_spec _ 11 _ (by decide) day
  simp only [Nat.reduceSub] at from_ upTo inside
  unfold ofSeconds?
  simp only
  refine ⟨_, dif_pos ⟨late, bound, from_, upTo, ?_, ?_, ?_, ?_, ?_⟩⟩ <;> omega

namespace Authority

theorem issuanceTime_eq_error_iff {now : Moment} :
    (∃ e, issuanceTime now = .error e) ↔ now < 0 ∨ (lastSecond * nanosPerSecond : Nat) < now := by
  unfold issuanceTime
  constructor
  · rintro ⟨e, failed⟩
    by_contra within
    have range : 0 ≤ now ∧ now ≤ (lastSecond * nanosPerSecond : Nat) := by
      rw [not_or, Int.not_lt, Int.not_lt] at within
      exact within
    have early : now.toNat / nanosPerSecond ≤ lastSecond := by
      have upper : now.toNat ≤ lastSecond * nanosPerSecond := Int.toNat_le.2 range.2
      exact Nat.div_le_of_le_mul (by rw [Nat.mul_comm]; exact upper)
    obtain ⟨date, found⟩ := DateTime.exists_ofSeconds? early
    rw [if_pos range, found] at failed
    cases failed
  · intro outside
    have other : ¬ (0 ≤ now ∧ now ≤ (lastSecond * nanosPerSecond : Nat)) := by
      rintro ⟨lower, upper⟩
      exact outside.elim (Int.not_lt.2 lower) (Int.not_lt.2 upper)
    rw [if_neg other]
    exact ⟨_, rfl⟩

/-- The leap day apart, a day is one of its month in every year. -/
theorem day_fits (date : DateTime) (years : Nat) :
    (if date.month = 2 ∧ date.day = 29 ∧ ¬ isLeap (date.year + years) then 28 else date.day) ≤
      daysInMonth (date.year + years) date.month := by
  have upToDay := date.valid.2.2.2.2.2.1
  by_cases february : date.month = 2
  · rw [february] at upToDay ⊢
    simp only [daysInMonth] at upToDay ⊢
    split at upToDay <;> split <;> grind
  · have same : daysInMonth (date.year + years) date.month = daysInMonth date.year date.month := by
      unfold daysInMonth
      split
      case h_12 two => exact absurd two february
      all_goals rfl
    rw [if_neg (fun h => february h.1), same]
    exact upToDay

theorem addYears_eq_error_iff {date : DateTime} {years : Nat} :
    (∃ e, addYears date years = .error e) ↔ 9999 < date.year + years := by
  obtain ⟨early, late, fromMonth, upToMonth, fromDay, upToDay, hour, minute, second⟩ := date.valid
  unfold addYears
  constructor
  · rintro ⟨e, failed⟩
    by_contra within
    rw [if_neg (by simp only [lastYear]; omega)] at failed
    have made : ∃ later, date.addYears? years = some later := by
      unfold DateTime.addYears?
      simp only
      refine ⟨_, dif_pos ⟨by omega, by omega, fromMonth, upToMonth, ?_, ?_, hour, minute, second⟩⟩
      · split <;> omega
      · exact day_fits date years
    obtain ⟨later, found⟩ := made
    rw [found] at failed
    cases failed
  · intro beyond
    split
    · exact ⟨_, rfl⟩
    · have none : date.addYears? years = .none := by
        unfold DateTime.addYears?
        exact dif_neg fun valid => by have := valid.2.1; omega
      rw [none]
      exact ⟨_, rfl⟩

end Authority

end SecureElement
