/-!
Octet strings, and the unsigned numbers they spell, most significant octet first.

`ofNat` and `toNat` are inverse to each other on the numbers that fit the width.
-/

namespace SecureElement

/-- A string of octets. -/
abbrev Octets := List UInt8

namespace Octets

/-- The number an octet string spells, most significant octet first. -/
def toNat (bytes : Octets) : Nat :=
  bytes.foldl (fun acc b => acc * 256 + b.toNat) 0

/-- The last `width` octets of the big-endian form of a number. -/
def ofNat : (width : Nat) → Nat → Octets
  | 0, _ => []
  | width + 1, n => ofNat width (n / 256) ++ [UInt8.ofNat n]

/-- The big-endian form of a number without leading zero octets; none for zero. -/
def ofNatMinimal (n : Nat) : Octets :=
  (ofNat (Nat.log2 n / 8 + 1) n).dropWhile (· == 0)

/-- The octets of a text that holds ASCII characters only. -/
def ofAscii (text : String) : Octets :=
  text.toList.map fun c => UInt8.ofNat c.toNat

/-- The text an ASCII octet string spells. -/
def toAscii (bytes : Octets) : String :=
  String.ofList (bytes.map fun b => Char.ofNat b.toNat)

/-- Octets combined position by position with exclusive or. -/
def xor (a b : Octets) : Octets :=
  List.zipWith (· ^^^ ·) a b

/-- White space as ASCII has it: blank, tab, line feed, form feed and carriage return. -/
def isAsciiBlank (b : UInt8) : Bool :=
  b == 0x20 || b == 0x09 || b == 0x0A || b == 0x0C || b == 0x0D

/-- An octet string without the ASCII white space around it. -/
def trimAscii (bytes : Octets) : Octets :=
  ((bytes.dropWhile isAsciiBlank).reverse.dropWhile isAsciiBlank).reverse

/-- The consecutive pieces of `size` octets, the last one possibly shorter. -/
def chunks (size : Nat) (bytes : Octets) : List Octets :=
  match size, bytes with
  | 0, _ => []
  | _, [] => []
  | size + 1, b :: rest => (b :: rest.take size) :: chunks (size + 1) (rest.drop size)
termination_by bytes.length
decreasing_by
  rw [List.length_drop, List.length_cons]
  omega

end Octets

end SecureElement
