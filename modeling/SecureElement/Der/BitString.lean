import SecureElement.Der

/-!
Bit strings in DER: an octet that tells how many bits of the last octet are not in use, and the
octets.
-/

namespace SecureElement.Der

/-- A bit string: its octets and the number of bits of the last one that are not in use. -/
structure BitString where
  unused : UInt8
  octets : Octets
  deriving DecidableEq, Repr

namespace BitString

/-- The bit string that uses every bit of the given octets. -/
def ofOctets (octets : Octets) : BitString := ⟨0, octets⟩

/-- The content octets of a bit string. -/
def content (b : BitString) : Octets := b.unused :: b.octets

/-- The bit string of content octets. At most seven bits are not in use, and none of an empty
string. -/
def ofContent? : Octets → Option BitString
  | [] => none
  | unused :: octets =>
      if 7 < unused ∨ (unused ≠ 0 ∧ octets = []) then none else some ⟨unused, octets⟩

/-- A bit string as an element. -/
def element (b : BitString) : Element := ⟨tagBitString, b.content⟩

/-- The bit string that an element is. -/
def ofElement? (e : Element) : Option BitString := do
  ofContent? (← e.content? tagBitString)

end BitString

end SecureElement.Der
