import SecureElement.Crypto.Digest

/-!
Keyed digests (HMAC) and keys derived from passwords by iterating them (PBKDF2).
-/

namespace SecureElement.Crypto

/-- The digest of a message under a key. -/
def hmac (d : Digest) (key message : Octets) : Octets :=
  let key := if d.blockSize < key.length then d.hash key else key
  let key := key ++ List.replicate (d.blockSize - key.length) 0
  let inner := d.hash (key.map (· ^^^ 0x36) ++ message)
  d.hash (key.map (· ^^^ 0x5C) ++ inner)

namespace Pbkdf2

/-- The combination of `count` further digests, each of the one before it. -/
def chain (d : Digest) (password : Octets) : (count : Nat) → (last acc : Octets) → Octets
  | 0, _, acc => acc
  | count + 1, last, acc =>
      let next := hmac d password last
      chain d password count next (Octets.xor acc next)

/-- The block of a derived key with a number. -/
def block (d : Digest) (password salt : Octets) (iterations number : Nat) : Octets :=
  let first := hmac d password (salt ++ Octets.ofNat 4 number)
  chain d password (iterations - 1) first first

/-- A key of `size` octets from a password. -/
def derive (d : Digest) (password salt : Octets) (iterations size : Nat) : Octets :=
  let blocks := (size + d.size - 1) / d.size
  ((List.range blocks).flatMap fun i => block d password salt iterations (i + 1)).take size

end Pbkdf2

end SecureElement.Crypto
