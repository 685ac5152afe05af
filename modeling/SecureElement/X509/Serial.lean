import SecureElement.Der.Integer
import SecureElement.Octets.Hex

/-!
Serial numbers of certificates. They are positive and take at most 20 octets when issued here; one
that is read may be any integer of at most 21.
-/

namespace SecureElement.X509

open Der

/-- A serial number, by the content octets of its integer. -/
structure Serial where
  content : Octets
  deriving DecidableEq, Repr

namespace Serial

/-- The most content octets of a serial number that is issued. -/
def maxIssued : Nat := 20

/-- The most content octets of a serial number that is read. -/
def maxRead : Nat := 21

/-- The serial number with an unsigned value, if it takes few enough octets. -/
def ofNat? (n : Nat) : Option Serial :=
  let content := Integer.ofNat n
  if content.length ≤ maxIssued then some ⟨content⟩ else none

/-- A serial number as an element. -/
def element (s : Serial) : Element := ⟨tagInteger, s.content⟩

/-- The serial number that an element is. -/
def ofElement? (e : Element) : Option Serial := do
  let content ← e.content? tagInteger
  guard (isInteger content ∧ content.length ≤ maxRead)
  some ⟨content⟩

/-- The upper-case hexadecimal text of a serial number, without zero octets in front. -/
def toHex (s : Serial) : String :=
  Hex.encodeUpper (s.content.dropWhile (· == 0))

end Serial

end SecureElement.X509
