import SecureElement.Authority.Error
import SecureElement.X509.Time

/-!
The period for which a certificate is issued: from the hour in which it is signed, for a number of
calendar years.
-/

namespace SecureElement.Authority

/-- A moment of the wall clock, in nanoseconds from the start of 1970; earlier ones are negative. -/
abbrev Moment := Int

/-- The nanoseconds in a second. -/
def nanosPerSecond : Nat := 1000000000

/-- The last second that has a date. -/
def lastSecond : Nat := 253402300799

/-- The start of the hour of a moment, which lies from 1970 to the last second of 9999. -/
def issuanceTime (now : Moment) : Except SigningError DateTime :=
  if 0 ≤ now ∧ now ≤ (lastSecond * nanosPerSecond : Nat) then
    match DateTime.ofSeconds? (now.toNat / nanosPerSecond) with
    | some date => .ok date.startOfHour
    | none => .error (.input .encoding)
  else .error (.input .encoding)

/-- The last year whose number fits the field of a date. -/
def lastYear : Nat := 65535

/-- The date a number of calendar years later. -/
def addYears (date : DateTime) (years : Nat) : Except SigningError DateTime :=
  if lastYear < date.year + years then .error (.input (.yearsOutOfRange years date.year))
  else
    match date.addYears? years with
    | some later => .ok later
    | none => .error (.input .encoding)

/-- A date in the form that certificates must use. -/
def x509Time (date : DateTime) : Except SigningError X509.Time :=
  orRefuse .encoding (X509.Time.ofDateTime? date)

/-- The period between two dates, as a certificate states it. -/
def periodBetween (notBefore notAfter : DateTime) : Except SigningError X509.Validity := do
  .ok ⟨← x509Time notBefore, ← x509Time notAfter⟩

end SecureElement.Authority
