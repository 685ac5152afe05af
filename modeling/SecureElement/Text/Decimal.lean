/-!
Decimal numerals: their value, and numbers written with a fixed number of digits.
-/

namespace SecureElement.Decimal

/-- Whether a character is a decimal digit of ASCII. -/
def isDigit (c : Char) : Bool :=
  '0' ≤ c && c ≤ '9'

/-- The number a run of digits denotes. -/
def valueOfDigits (digits : List Char) : Nat :=
  digits.foldl (fun acc c => acc * 10 + (c.toNat - '0'.toNat)) 0

/-- The number a non-empty run of nothing but digits denotes. -/
def parse? (digits : List Char) : Option Nat :=
  if digits ≠ [] ∧ digits.all isDigit then some (valueOfDigits digits) else none

/-- The number a numeral with an optional plus sign denotes. -/
def parseUnsigned? : List Char → Option Nat
  | '+' :: digits => parse? digits
  | digits => parse? digits

/-- The number a numeral with an optional sign denotes. -/
def parseSigned? : List Char → Option Int
  | '-' :: digits => (parse? digits).map fun n => -(n : Int)
  | numeral => (parseUnsigned? numeral).map Int.ofNat

/-- The last `width` decimal digits of a number, leading zeros included. -/
def fixed : (width : Nat) → Nat → List Char
  | 0, _ => []
  | width + 1, n => fixed width (n / 10) ++ [Char.ofNat ('0'.toNat + n % 10)]

end SecureElement.Decimal
