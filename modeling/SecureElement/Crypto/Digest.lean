import SecureElement.Octets

/-!
Digest functions in general: the size of the blocks they work on and what they make of a message.
The functions of the SHA-2 family pad a message in the same way.
-/

namespace SecureElement.Crypto

/-- A digest function. -/
structure Digest where
  /-- The number of octets in a block. -/
  blockSize : Nat
  hash : Octets → Octets

namespace Digest

/-- The number of octets in the digest of a message. -/
def size (d : Digest) : Nat := (d.hash []).length

/-- A message filled up to whole blocks: a one bit, zero bits and the number of bits in the message,
the last in `width` octets. -/
def padded (blockSize width : Nat) (message : Octets) : Octets :=
  let used := (message.length + 1 + width) % blockSize
  message ++ 0x80 :: List.replicate ((blockSize - used) % blockSize) 0 ++
    Octets.ofNat width (8 * message.length)

end Digest

end SecureElement.Crypto
