import SecureElement.Text.Decimal

/-!
Dates and times of day in the Gregorian calendar, in UTC, from 1970 to 9999.

A `DateTime` is valid by construction. `ofSeconds?` and `toSeconds` convert from and to the seconds
since the first of January 1970; `startOfHour` and `addYears?` are the arithmetic of validity
windows.
-/

namespace SecureElement

namespace Calendar

/-- Whether a year has a leap day. -/
def isLeap (year : Nat) : Bool :=
  (year % 4 == 0 && year % 100 != 0) || year % 400 == 0

/-- The number of days of a month, counted from one; none for any other number. -/
def daysInMonth (year month : Nat) : Nat :=
  match month with
  | 1 | 3 | 5 | 7 | 8 | 10 | 12 => 31
  | 4 | 6 | 9 | 11 => 30
  | 2 => if isLeap year then 29 else 28
  | _ => 0

/-- The number of days of a year. -/
def daysInYear (year : Nat) : Nat :=
  if isLeap year then 366 else 365

theorem daysInYear_pos (year : Nat) : 0 < daysInYear year := by
  unfold daysInYear
  split <;> decide

/-- The number of days in the years before a year, counted from the year zero. -/
def daysBeforeYear (year : Nat) : Nat :=
  365 * year + (year + 3) / 4 - (year + 99) / 100 + (year + 399) / 400

/-- The number of days of a year before a month. -/
def daysBeforeMonth (year month : Nat) : Nat :=
  (List.range (month - 1)).foldl (fun days i => days + daysInMonth year (i + 1)) 0

/-- The year in which a day falls and its place there, if days are counted from the start of
`year`. -/
def yearOfDay (year day : Nat) : Nat × Nat :=
  if day < daysInYear year then (year, day)
  else yearOfDay (year + 1) (day - daysInYear year)
termination_by day
decreasing_by
  have := daysInYear_pos year
  omega

/-- The month in which a day of a year falls and its place there, if days are counted from the start
of `month`. -/
def monthOfDay (year month day : Nat) : Nat × Nat :=
  if day < daysInMonth year month ∨ 12 ≤ month then (month, day)
  else monthOfDay year (month + 1) (day - daysInMonth year month)
termination_by 12 - month

/-- Whether six numbers are a date and a time of day from 1970 to 9999. -/
def Valid (year month day hour minute second : Nat) : Prop :=
  1970 ≤ year ∧ year ≤ 9999 ∧ 1 ≤ month ∧ month ≤ 12 ∧ 1 ≤ day ∧ day ≤ daysInMonth year month ∧
    hour ≤ 23 ∧ minute ≤ 59 ∧ second ≤ 59

instance (year month day hour minute second : Nat) :
    Decidable (Valid year month day hour minute second) := by
  unfold Valid; infer_instance

end Calendar

/-- A date and a time of day, from 1970 to 9999. -/
structure DateTime where
  year : Nat
  month : Nat
  day : Nat
  hour : Nat
  minute : Nat
  second : Nat
  valid : Calendar.Valid year month day hour minute second
  deriving DecidableEq

namespace DateTime

open Calendar

/-- The date and time of six numbers, if there is one. -/
def make? (year month day hour minute second : Nat) : Option DateTime :=
  if valid : Valid year month day hour minute second then
    some ⟨year, month, day, hour, minute, second, valid⟩
  else none

/-- The seconds from the start of 1970. -/
def toSeconds (d : DateTime) : Nat :=
  (daysBeforeYear d.year - daysBeforeYear 1970 + daysBeforeMonth d.year d.month + (d.day - 1)) *
    86400 + d.hour * 3600 + d.minute * 60 + d.second

/-- The date and time a number of seconds after the start of 1970, if it is not after 9999. -/
def ofSeconds? (seconds : Nat) : Option DateTime :=
  let (year, dayOfYear) := yearOfDay 1970 (seconds / 86400)
  let (month, dayOfMonth) := monthOfDay year 1 dayOfYear
  let time := seconds % 86400
  make? year month (dayOfMonth + 1) (time / 3600) (time / 60 % 60) (time % 60)

/-- The start of the hour. -/
def startOfHour (d : DateTime) : DateTime :=
  ⟨d.year, d.month, d.day, d.hour, 0, 0, by
    have := d.valid; unfold Valid at *; omega⟩

/-- The same day and time in a later year, if it is not after 9999. The leap day becomes the last
day of February in a year that has none. -/
def addYears? (d : DateTime) (years : Nat) : Option DateTime :=
  let year := d.year + years
  let day := if d.month = 2 ∧ d.day = 29 ∧ ¬ isLeap year then 28 else d.day
  make? year d.month day d.hour d.minute d.second

/-- The text `YYYY-MM-DDTHH:MM:SSZ`. -/
def text (d : DateTime) : String :=
  String.ofList (Decimal.fixed 4 d.year ++ '-' :: Decimal.fixed 2 d.month ++
    '-' :: Decimal.fixed 2 d.day ++ 'T' :: Decimal.fixed 2 d.hour ++
    ':' :: Decimal.fixed 2 d.minute ++ ':' :: Decimal.fixed 2 d.second ++ ['Z'])

end DateTime

end SecureElement
