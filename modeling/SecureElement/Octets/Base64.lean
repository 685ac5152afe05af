import SecureElement.Octets

/-!
Base 64: three octets as four symbols of six bits each. The last group may be short; it is then
filled up with `=` or left short. Reading is strict: the bits that a short group leaves over are
zero, so each octet string has one padded spelling.
-/

namespace SecureElement.Base64

/-- An alphabet: letters, digits and two further symbols. -/
structure Alphabet where
  at62 : UInt8
  at63 : UInt8
  deriving DecidableEq, Repr

/-- The alphabet with plus and slash. -/
def standard : Alphabet := ⟨0x2B, 0x2F⟩

/-- The alphabet with minus and low line, safe in addresses and file names. -/
def urlSafe : Alphabet := ⟨0x2D, 0x5F⟩

/-- The sign that fills up a short group. -/
def pad : UInt8 := 0x3D

/-- The symbol of a value below 64. -/
def Alphabet.symbol (a : Alphabet) (n : Nat) : UInt8 :=
  if n < 26 then UInt8.ofNat (0x41 + n)
  else if n < 52 then UInt8.ofNat (0x61 + n - 26)
  else if n < 62 then UInt8.ofNat (0x30 + n - 52)
  else if n = 62 then a.at62
  else a.at63

/-- The value of a symbol. -/
def Alphabet.value? (a : Alphabet) (s : UInt8) : Option Nat :=
  if 0x41 ≤ s ∧ s ≤ 0x5A then some (s.toNat - 0x41)
  else if 0x61 ≤ s ∧ s ≤ 0x7A then some (s.toNat - 0x61 + 26)
  else if 0x30 ≤ s ∧ s ≤ 0x39 then some (s.toNat - 0x30 + 52)
  else if s = a.at62 then some 62
  else if s = a.at63 then some 63
  else none

/-- The symbols of an octet string; a short last group is followed by `fill`, once for each octet
that it lacks. -/
def encodeWith (a : Alphabet) (fill : Octets) : Octets → Octets
  | [] => []
  | [x] => [a.symbol (x.toNat / 4), a.symbol (x.toNat % 4 * 16)] ++ fill ++ fill
  | [x, y] =>
      [a.symbol (x.toNat / 4), a.symbol (x.toNat % 4 * 16 + y.toNat / 16),
        a.symbol (y.toNat % 16 * 4)] ++ fill
  | x :: y :: z :: rest =>
      a.symbol (x.toNat / 4) :: a.symbol (x.toNat % 4 * 16 + y.toNat / 16) ::
        a.symbol (y.toNat % 16 * 4 + z.toNat / 64) :: a.symbol (z.toNat % 64) ::
        encodeWith a fill rest

/-- Padded symbols in the standard alphabet. -/
def encode (bytes : Octets) : Octets :=
  encodeWith standard [pad] bytes

/-- Unpadded symbols in the alphabet for addresses and file names. -/
def encodeUrlSafe (bytes : Octets) : Octets :=
  encodeWith urlSafe [] bytes

/-- The two values of a last group that spells one octet. -/
def lastOctet? (p q : Nat) : Option Octets :=
  if q % 16 = 0 then some [UInt8.ofNat (p * 4 + q / 16)] else none

/-- The three values of a last group that spells two octets. -/
def lastOctets? (p q r : Nat) : Option Octets :=
  if r % 4 = 0 then
    some [UInt8.ofNat (p * 4 + q / 16), UInt8.ofNat (q % 16 * 16 + r / 4)]
  else none

/-- The octets that padded symbols of the standard alphabet spell. -/
def decode : Octets → Option Octets
  | [] => some []
  | a :: b :: c :: d :: rest => do
      let p ← standard.value? a
      let q ← standard.value? b
      if rest = [] ∧ d = pad then
        if c = pad then lastOctet? p q
        else lastOctets? p q (← standard.value? c)
      else
        let r ← standard.value? c
        let s ← standard.value? d
        let tail ← decode rest
        some (UInt8.ofNat (p * 4 + q / 16) :: UInt8.ofNat (q % 16 * 16 + r / 4) ::
          UInt8.ofNat (r % 4 * 64 + s) :: tail)
  | _ => none

end SecureElement.Base64
