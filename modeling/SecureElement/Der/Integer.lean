import SecureElement.Der

/-!
Integers in DER: two's complement in the fewest octets. Only numbers from zero on are given a value
here; a negative integer has content octets and nothing else.
-/

namespace SecureElement.Der

/-- Whether octets are the content of an integer: some, and the first nine bits not all alike. -/
def isInteger : Octets → Bool
  | [] => false
  | [_] => true
  | a :: b :: _ => !((a == 0x00 && b < 0x80) || (a == 0xFF && 0x80 ≤ b))

namespace Integer

/-- The content octets of an integer from zero on: a zero octet goes before a first octet with the
top bit set. -/
def ofNat (n : Nat) : Octets :=
  match Octets.ofNatMinimal n with
  | [] => [0]
  | b :: rest => if b < 0x80 then b :: rest else 0 :: b :: rest

/-- The value of the content of an integer from zero on. -/
def toNat? : Octets → Option Nat
  | [] => none
  | b :: rest =>
      if isInteger (b :: rest) ∧ b < 0x80 then some (Octets.toNat (b :: rest)) else none

end Integer

namespace Element

/-- The integer with the given value. -/
def ofNat (n : Nat) : Element := ⟨tagInteger, Integer.ofNat n⟩

/-- The value of an integer from zero on. -/
def nat? (e : Element) : Option Nat := do
  Integer.toNat? (← e.content? tagInteger)

/-- The value of an integer from zero to a bound. -/
def natUpTo? (bound : Nat) (e : Element) : Option Nat := do
  let n ← e.nat?
  if n ≤ bound then some n else none

end Element

end SecureElement.Der
