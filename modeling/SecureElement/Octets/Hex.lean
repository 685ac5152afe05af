import SecureElement.Octets

/-!
Hexadecimal text: two digits an octet, most significant first. Reading takes either case and
refuses an odd number of digits; writing is lower or upper case throughout.
-/

namespace SecureElement.Hex

/-- The value of a hexadecimal digit of either case. -/
def digitValue? (c : Char) : Option Nat :=
  if '0' ≤ c ∧ c ≤ '9' then some (c.toNat - '0'.toNat)
  else if 'a' ≤ c ∧ c ≤ 'f' then some (c.toNat - 'a'.toNat + 10)
  else if 'A' ≤ c ∧ c ≤ 'F' then some (c.toNat - 'A'.toNat + 10)
  else none

/-- Whether a character is a hexadecimal digit. -/
def isDigit (c : Char) : Bool :=
  (digitValue? c).isSome

/-- The lower-case digit of a value below sixteen. -/
def lowerDigit (n : Nat) : Char :=
  if n < 10 then Char.ofNat ('0'.toNat + n) else Char.ofNat ('a'.toNat + n - 10)

/-- The upper-case digit of a value below sixteen. -/
def upperDigit (n : Nat) : Char :=
  if n < 10 then Char.ofNat ('0'.toNat + n) else Char.ofNat ('A'.toNat + n - 10)

/-- The octets that pairs of digits spell. -/
def decode : List Char → Option Octets
  | [] => some []
  | [_] => none
  | high :: low :: rest => do
      let high ← digitValue? high
      let low ← digitValue? low
      let tail ← decode rest
      some (UInt8.ofNat (high * 16 + low) :: tail)

/-- Two digits an octet, each written by `digit`. -/
def encodeWith (digit : Nat → Char) (bytes : Octets) : List Char :=
  bytes.flatMap fun b => [digit (b.toNat / 16), digit (b.toNat % 16)]

/-- The lower-case hexadecimal text of an octet string. -/
def encodeLower (bytes : Octets) : String :=
  String.ofList (encodeWith lowerDigit bytes)

/-- The upper-case hexadecimal text of an octet string. -/
def encodeUpper (bytes : Octets) : String :=
  String.ofList (encodeWith upperDigit bytes)

end SecureElement.Hex
