import SecureElement.Crypto.Digest

/-!
SHA-512 and SHA-384: digests over words of 64 bits. A block is spread out over 80 words, each of
which drives one round of the compression function.
-/

namespace SecureElement.Crypto.Sha512

/-- The eight words that a block is compressed into. -/
structure State where
  a : UInt64
  b : UInt64
  c : UInt64
  d : UInt64
  e : UInt64
  f : UInt64
  g : UInt64
  h : UInt64
  deriving DecidableEq, Repr

/-- A word rotated to the right. -/
def rotate (x : UInt64) (n : UInt64) : UInt64 :=
  (x >>> n) ||| (x <<< (64 - n))

/-- Mixes the bits of the word that leads the new one. -/
def upperSigma0 (x : UInt64) : UInt64 := rotate x 28 ^^^ rotate x 34 ^^^ rotate x 39

/-- Mixes the bits of the word that drives the choice. -/
def upperSigma1 (x : UInt64) : UInt64 := rotate x 14 ^^^ rotate x 18 ^^^ rotate x 41

/-- Mixes the bits of the word fifteen places back in the schedule. -/
def lowerSigma0 (x : UInt64) : UInt64 := rotate x 1 ^^^ rotate x 8 ^^^ (x >>> 7)

/-- Mixes the bits of the word two places back in the schedule. -/
def lowerSigma1 (x : UInt64) : UInt64 := rotate x 19 ^^^ rotate x 61 ^^^ (x >>> 6)

/-- The constants of the rounds: the first 64 bits of the fractional parts of the cube roots of the
first 80 primes. -/
def constants : List UInt64 := [
  0x428a2f98d728ae22, 0x7137449123ef65cd, 0xb5c0fbcfec4d3b2f, 0xe9b5dba58189dbbc,
  0x3956c25bf348b538, 0x59f111f1b605d019, 0x923f82a4af194f9b, 0xab1c5ed5da6d8118,
  0xd807aa98a3030242, 0x12835b0145706fbe, 0x243185be4ee4b28c, 0x550c7dc3d5ffb4e2,
  0x72be5d74f27b896f, 0x80deb1fe3b1696b1, 0x9bdc06a725c71235, 0xc19bf174cf692694,
  0xe49b69c19ef14ad2, 0xefbe4786384f25e3, 0x0fc19dc68b8cd5b5, 0x240ca1cc77ac9c65,
  0x2de92c6f592b0275, 0x4a7484aa6ea6e483, 0x5cb0a9dcbd41fbd4, 0x76f988da831153b5,
  0x983e5152ee66dfab, 0xa831c66d2db43210, 0xb00327c898fb213f, 0xbf597fc7beef0ee4,
  0xc6e00bf33da88fc2, 0xd5a79147930aa725, 0x06ca6351e003826f, 0x142929670a0e6e70,
  0x27b70a8546d22ffc, 0x2e1b21385c26c926, 0x4d2c6dfc5ac42aed, 0x53380d139d95b3df,
  0x650a73548baf63de, 0x766a0abb3c77b2a8, 0x81c2c92e47edaee6, 0x92722c851482353b,
  0xa2bfe8a14cf10364, 0xa81a664bbc423001, 0xc24b8b70d0f89791, 0xc76c51a30654be30,
  0xd192e819d6ef5218, 0xd69906245565a910, 0xf40e35855771202a, 0x106aa07032bbd1b8,
  0x19a4c116b8d2d0c8, 0x1e376c085141ab53, 0x2748774cdf8eeb99, 0x34b0bcb5e19b48a8,
  0x391c0cb3c5c95a63, 0x4ed8aa4ae3418acb, 0x5b9cca4f7763e373, 0x682e6ff3d6b2b8a3,
  0x748f82ee5defb2fc, 0x78a5636f43172f60, 0x84c87814a1f0ab72, 0x8cc702081a6439ec,
  0x90befffa23631e28, 0xa4506cebde82bde9, 0xbef9a3f7b2c67915, 0xc67178f2e372532b,
  0xca273eceea26619c, 0xd186b8c721c0c207, 0xeada7dd6cde0eb1e, 0xf57d4f7fee6ed178,
  0x06f067aa72176fba, 0x0a637dc5a2c898a6, 0x113f9804bef90dae, 0x1b710b35131c471b,
  0x28db77f523047d84, 0x32caab7b40c72493, 0x3c9ebe0a15c9bebc, 0x431d67c49c100d4c,
  0x4cc5d4becb3e42b6, 0x597f299cfc657e2a, 0x5fcb6fab3ad6faec, 0x6c44198c4a475817]

/-- The words of a block, most significant octet first. -/
def words (block : Octets) : List UInt64 :=
  (block.chunks 8).map fun w => UInt64.ofNat (Octets.toNat w)

/-- The next `count` words of a schedule, from the sixteen before the last of them on. -/
def schedule : (count : Nat) → List UInt64 → List UInt64
  | 0, _ => []
  | count + 1, recent =>
      let next := lowerSigma1 (recent.getD 14 0) + recent.getD 9 0 +
        lowerSigma0 (recent.getD 1 0) + recent.getD 0 0
      recent.getD 0 0 :: schedule count (recent.tail ++ [next])

/-- One round, driven by a word to which the constant of the round has been added. -/
def round (s : State) (w : UInt64) : State :=
  let choice := (s.e &&& s.f) ^^^ (~~~s.e &&& s.g)
  let majority := (s.a &&& s.b) ^^^ (s.a &&& s.c) ^^^ (s.b &&& s.c)
  let t := s.h + upperSigma1 s.e + choice + w
  ⟨t + upperSigma0 s.a + majority, s.a, s.b, s.c, s.d + t, s.e, s.f, s.g⟩

/-- The state after a block. -/
def compress (s : State) (block : Octets) : State :=
  let r := (List.zipWith (· + ·) constants (schedule 80 (words block))).foldl round s
  ⟨s.a + r.a, s.b + r.b, s.c + r.c, s.d + r.d, s.e + r.e, s.f + r.f, s.g + r.g, s.h + r.h⟩

/-- The octets of a state. -/
def State.octets (s : State) : Octets :=
  [s.a, s.b, s.c, s.d, s.e, s.f, s.g, s.h].flatMap fun w => Octets.ofNat 8 w.toNat

/-- The state after a message, from a given one. -/
def absorb (start : State) (message : Octets) : State :=
  ((Digest.padded 128 16 message).chunks 128).foldl compress start

/-- The state before the first block of SHA-512. -/
def start : State := ⟨
  0x6a09e667f3bcc908, 0xbb67ae8584caa73b, 0x3c6ef372fe94f82b, 0xa54ff53a5f1d36f1,
  0x510e527fade682d1, 0x9b05688c2b3e6c1f, 0x1f83d9abfb41bd6b, 0x5be0cd19137e2179⟩

/-- The state before the first block of SHA-384. -/
def start384 : State := ⟨
  0xcbbb9d5dc1059ed8, 0x629a292a367cd507, 0x9159015a3070dd17, 0x152fecd8f70e5939,
  0x67332667ffc00b31, 0x8eb44a8768581511, 0xdb0c2e0d64f98fa7, 0x47b5481dbefa4fa4⟩

end Sha512

/-- SHA-512. -/
def sha512 : Digest := ⟨128, fun message => (Sha512.absorb Sha512.start message).octets⟩

/-- SHA-384: SHA-512 from another start, cut to 48 octets. -/
def sha384 : Digest :=
  ⟨128, fun message => (Sha512.absorb Sha512.start384 message).octets.take 48⟩

end SecureElement.Crypto
