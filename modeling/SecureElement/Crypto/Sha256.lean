import SecureElement.Crypto.Digest

/-!
SHA-256 and SHA-224: digests over words of 32 bits. A block is spread out over 64 words, each of
which drives one round of the compression function.
-/

namespace SecureElement.Crypto.Sha256

/-- The eight words that a block is compressed into. -/
structure State where
  a : UInt32
  b : UInt32
  c : UInt32
  d : UInt32
  e : UInt32
  f : UInt32
  g : UInt32
  h : UInt32
  deriving DecidableEq, Repr

/-- A word rotated to the right. -/
def rotate (x : UInt32) (n : UInt32) : UInt32 :=
  (x >>> n) ||| (x <<< (32 - n))

/-- Mixes the bits of the word that leads the new one. -/
def upperSigma0 (x : UInt32) : UInt32 := rotate x 2 ^^^ rotate x 13 ^^^ rotate x 22

/-- Mixes the bits of the word that drives the choice. -/
def upperSigma1 (x : UInt32) : UInt32 := rotate x 6 ^^^ rotate x 11 ^^^ rotate x 25

/-- Mixes the bits of the word fifteen places back in the schedule. -/
def lowerSigma0 (x : UInt32) : UInt32 := rotate x 7 ^^^ rotate x 18 ^^^ (x >>> 3)

/-- Mixes the bits of the word two places back in the schedule. -/
def lowerSigma1 (x : UInt32) : UInt32 := rotate x 17 ^^^ rotate x 19 ^^^ (x >>> 10)

/-- The constants of the rounds: the first 32 bits of the fractional parts of the cube roots of the
first 64 primes. -/
def constants : List UInt32 := [
  0x428a2f98, 0x71374491, 0xb5c0fbcf, 0xe9b5dba5, 0x3956c25b, 0x59f111f1, 0x923f82a4, 0xab1c5ed5,
  0xd807aa98, 0x12835b01, 0x243185be, 0x550c7dc3, 0x72be5d74, 0x80deb1fe, 0x9bdc06a7, 0xc19bf174,
  0xe49b69c1, 0xefbe4786, 0x0fc19dc6, 0x240ca1cc, 0x2de92c6f, 0x4a7484aa, 0x5cb0a9dc, 0x76f988da,
  0x983e5152, 0xa831c66d, 0xb00327c8, 0xbf597fc7, 0xc6e00bf3, 0xd5a79147, 0x06ca6351, 0x14292967,
  0x27b70a85, 0x2e1b2138, 0x4d2c6dfc, 0x53380d13, 0x650a7354, 0x766a0abb, 0x81c2c92e, 0x92722c85,
  0xa2bfe8a1, 0xa81a664b, 0xc24b8b70, 0xc76c51a3, 0xd192e819, 0xd6990624, 0xf40e3585, 0x106aa070,
  0x19a4c116, 0x1e376c08, 0x2748774c, 0x34b0bcb5, 0x391c0cb3, 0x4ed8aa4a, 0x5b9cca4f, 0x682e6ff3,
  0x748f82ee, 0x78a5636f, 0x84c87814, 0x8cc70208, 0x90befffa, 0xa4506ceb, 0xbef9a3f7, 0xc67178f2]

/-- The words of a block, most significant octet first. -/
def words (block : Octets) : List UInt32 :=
  (block.chunks 4).map fun w => UInt32.ofNat (Octets.toNat w)

/-- The next `count` words of a schedule, from the sixteen before the last of them on. -/
def schedule : (count : Nat) → List UInt32 → List UInt32
  | 0, _ => []
  | count + 1, recent =>
      let next := lowerSigma1 (recent.getD 14 0) + recent.getD 9 0 +
        lowerSigma0 (recent.getD 1 0) + recent.getD 0 0
      recent.getD 0 0 :: schedule count (recent.tail ++ [next])

/-- One round, driven by a word to which the constant of the round has been added. -/
def round (s : State) (w : UInt32) : State :=
  let choice := (s.e &&& s.f) ^^^ (~~~s.e &&& s.g)
  let majority := (s.a &&& s.b) ^^^ (s.a &&& s.c) ^^^ (s.b &&& s.c)
  let t := s.h + upperSigma1 s.e + choice + w
  ⟨t + upperSigma0 s.a + majority, s.a, s.b, s.c, s.d + t, s.e, s.f, s.g⟩

/-- The state after a block. -/
def compress (s : State) (block : Octets) : State :=
  let r := (List.zipWith (· + ·) constants (schedule 64 (words block))).foldl round s
  ⟨s.a + r.a, s.b + r.b, s.c + r.c, s.d + r.d, s.e + r.e, s.f + r.f, s.g + r.g, s.h + r.h⟩

/-- The octets of a state. -/
def State.octets (s : State) : Octets :=
  [s.a, s.b, s.c, s.d, s.e, s.f, s.g, s.h].flatMap fun w => Octets.ofNat 4 w.toNat

/-- The state after a message, from a given one. -/
def absorb (start : State) (message : Octets) : State :=
  ((Digest.padded 64 8 message).chunks 64).foldl compress start

/-- The state before the first block of SHA-256. -/
def start : State := ⟨
  0x6a09e667, 0xbb67ae85, 0x3c6ef372, 0xa54ff53a, 0x510e527f, 0x9b05688c, 0x1f83d9ab, 0x5be0cd19⟩

/-- The state before the first block of SHA-224. -/
def start224 : State := ⟨
  0xc1059ed8, 0x367cd507, 0x3070dd17, 0xf70e5939, 0xffc00b31, 0x68581511, 0x64f98fa7, 0xbefa4fa4⟩

end Sha256

/-- SHA-256. -/
def sha256 : Digest := ⟨64, fun message => (Sha256.absorb Sha256.start message).octets⟩

/-- SHA-224: SHA-256 from another start, cut to 28 octets. -/
def sha224 : Digest :=
  ⟨64, fun message => (Sha256.absorb Sha256.start224 message).octets.take 28⟩

end SecureElement.Crypto
