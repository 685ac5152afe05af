import SecureElement.Der
import SecureElement.Text.Decimal
import SecureElement.Time.Calendar

/-!
The dates of certificates, which take one of two written forms: with a year of two digits, for the
years 1950 to 2049, or with a year of four digits. `Time.ofDateTime?` chooses the form that
certificates must use.
-/

namespace SecureElement.X509

open Der

/-- The two written forms of a date. -/
inductive TimeForm where
  /-- A year of two digits. -/
  | utc
  /-- A year of four digits. -/
  | generalized
  deriving DecidableEq, Repr

/-- A date in one of its written forms. -/
structure Time where
  form : TimeForm
  date : DateTime
  deriving DecidableEq

namespace Time

/-- The first year that takes the form with four digits. -/
def generalizedFrom : Nat := 2050

/-- The last year that can be written with two digits. -/
def lastUtcYear : Nat := 2049

/-- A date with a year of two digits. There is none beyond the last year that can be written so. -/
def utc? (d : DateTime) : Option Time :=
  if d.year ≤ lastUtcYear then some ⟨.utc, d⟩ else none

/-- A date in the form that certificates must use. -/
def ofDateTime? (d : DateTime) : Option Time :=
  if d.year < generalizedFrom then utc? d else some ⟨.generalized, d⟩

/-- A date in the form of its year, as `ofDateTime?` has it for every date. -/
def ofDateTime (d : DateTime) : Time :=
  if d.year < generalizedFrom then ⟨.utc, d⟩ else ⟨.generalized, d⟩

/-- The characters of a date in its form. The year of two digits is taken modulo a hundred. -/
def chars (t : Time) : List Char :=
  let year := match t.form with
    | .utc => Decimal.fixed 2 t.date.year
    | .generalized => Decimal.fixed 4 t.date.year
  year ++ Decimal.fixed 2 t.date.month ++ Decimal.fixed 2 t.date.day ++
    Decimal.fixed 2 t.date.hour ++ Decimal.fixed 2 t.date.minute ++ Decimal.fixed 2 t.date.second ++
    ['Z']

/-- The tag of a form. -/
def tag : TimeForm → UInt8
  | .utc => tagUtcTime
  | .generalized => tagGeneralizedTime

/-- A date as an element. -/
def element (t : Time) : Element :=
  ⟨tag t.form, t.chars.map fun c => UInt8.ofNat c.toNat⟩

/-- The values of the numerals of the given widths that make up a text with a `Z` at its end. -/
def numerals? : (widths : List Nat) → List Char → Option (List Nat)
  | [], ['Z'] => some []
  | [], _ => none
  | width :: widths, cs => do
      guard ((cs.take width).length = width)
      let n ← Decimal.parse? (cs.take width)
      let rest ← numerals? widths (cs.drop width)
      some (n :: rest)

/-- The year of two digits: 50 to 99 are in the twentieth century and 00 to 49 in the next. -/
def fullYear (n : Nat) : Nat :=
  if n < 50 then 2000 + n else 1900 + n

/-- The date of characters in a form. -/
def ofChars? (form : TimeForm) (cs : List Char) : Option Time := do
  let width := match form with
    | .utc => 2
    | .generalized => 4
  match ← numerals? [width, 2, 2, 2, 2, 2] cs with
  | [year, month, day, hour, minute, second] =>
      let year := match form with
        | .utc => fullYear year
        | .generalized => year
      some ⟨form, ← DateTime.make? year month day hour minute second⟩
  | _ => none

/-- The date that an element is. -/
def ofElement? (e : Element) : Option Time :=
  let cs := e.content.map fun b => Char.ofNat b.toNat
  if e.tag = tagUtcTime then ofChars? .utc cs
  else if e.tag = tagGeneralizedTime then ofChars? .generalized cs
  else none

end Time

/-- The first and the last moment at which a certificate is valid. -/
structure Validity where
  notBefore : Time
  notAfter : Time
  deriving DecidableEq

namespace Validity

/-- A period of validity as an element. -/
def element (v : Validity) : Element :=
  .sequence [v.notBefore.element, v.notAfter.element]

/-- The period of validity that an element is. -/
def ofElement? (e : Element) : Option Validity := do
  match ← e.sequence? with
  | [notBefore, notAfter] => some ⟨← Time.ofElement? notBefore, ← Time.ofElement? notAfter⟩
  | _ => none

end Validity

end SecureElement.X509
