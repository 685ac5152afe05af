import SecureElement.Octets

/-!
The elliptic curve P-256: its field, the addition of its points and their encodings.

A point is given by its coordinates, and addition is the rule of chord and tangent. The curve is
`y² = x³ - 3x + b` over the integers modulo `prime`; the multiples of `generator` repeat with the
period `order`.
-/

namespace SecureElement.Crypto

/-! ### Arithmetic modulo a number -/

namespace Modular

/-- The coefficient `u` with `u * x = gcd` modulo `m` when it is so for `u` and `a` and for `v` and
`b`, by the algorithm of Euclid. -/
def coefficient (a b : Nat) (u v : Int) : Int :=
  if h : b = 0 then u
  else
    have := Nat.mod_lt a (Nat.pos_of_ne_zero h)
    coefficient b (a % b) v (u - (a / b : Nat) * v)
termination_by b

/-- The inverse of a number modulo one that has no factor in common with it. -/
def inverse (m x : Nat) : Nat :=
  (coefficient m x 0 1 % m).toNat

end Modular

namespace P256

/-- The number of elements of the field. -/
def prime : Nat := 0xffffffff00000001000000000000000000000000ffffffffffffffffffffffff

/-- The number of points of the curve. -/
def order : Nat := 0xffffffff00000000ffffffffffffffffbce6faada7179e84f3b9cac2fc632551

/-- The field over which the curve is defined. -/
abbrev Field := Fin prime

namespace Field

/-- The field element of a number. -/
def ofNat (n : Nat) : Field := ⟨n % prime, Nat.mod_lt n (by decide)⟩

/-- The inverse of a field element. -/
def inverse (x : Field) : Field :=
  ofNat (Modular.inverse prime x.val)

/-- The power of a field element. -/
def pow (x : Field) (n : Nat) : Field :=
  if n = 0 then ofNat 1
  else
    let half := pow (x * x) (n / 2)
    if n % 2 = 1 then x * half else half
termination_by n

/-- A square root of a field element, if it has one. -/
def sqrt? (x : Field) : Option Field :=
  let root := pow x ((prime + 1) / 4)
  if root * root = x then some root else none

end Field

/-- The constant term of the equation of the curve. -/
def b : Field :=
  Field.ofNat 0x5ac635d8aa3a93e7b3ebbd55769886bc651d06b0cc53b0f63bce3c3e27d2604b

/-- The right side of the equation of the curve. -/
def rightSide (x : Field) : Field :=
  x * x * x - Field.ofNat 3 * x + b

/-- A point of the curve. -/
inductive Point where
  /-- The neutral point. -/
  | infinity
  | affine (x y : Field)
  deriving DecidableEq, Repr

namespace Point

/-- Whether a pair of coordinates satisfies the equation of the curve. -/
def onCurve (x y : Field) : Bool :=
  y * y == rightSide x

/-- The sum of two points: the third point on the line through them, with the sign of `y` turned. -/
def add : Point → Point → Point
  | infinity, q => q
  | p, infinity => p
  | affine x₁ y₁, affine x₂ y₂ =>
      if x₁ = x₂ ∧ y₁ + y₂ = Field.ofNat 0 then infinity
      else
        let slope :=
          if x₁ = x₂ then
            (Field.ofNat 3 * x₁ * x₁ - Field.ofNat 3) * Field.inverse (y₁ + y₁)
          else (y₂ - y₁) * Field.inverse (x₂ - x₁)
        let x₃ := slope * slope - x₁ - x₂
        affine x₃ (slope * (x₁ - x₃) - y₁)

/-- The multiple of a point. -/
def mul (n : Nat) (p : Point) : Point :=
  if n = 0 then infinity
  else
    let half := mul (n / 2) (add p p)
    if n % 2 = 1 then add p half else half
termination_by n

/-- The point that is the base of keys and signatures. -/
def generator : Point :=
  affine (Field.ofNat 0x6b17d1f2e12c4247f8bce6e563a440f277037d812deb33a0f4a13945d898c296)
    (Field.ofNat 0x4fe342e2fe1a7f9b8ee7eb4a7c0f9e162bce33576b315ececbb6406837bf51f5)

/-- The octets of a point: a mark, and both coordinates in 32 octets each. -/
def encode : Point → Octets
  | infinity => [0x00]
  | affine x y => 0x04 :: Octets.ofNat 32 x.val ++ Octets.ofNat 32 y.val

/-- The field element that 32 octets spell, if it is below the prime. -/
def coordinate? (bytes : Octets) : Option Field :=
  let n := Octets.toNat bytes
  if h : bytes.length = 32 ∧ n < prime then some ⟨n, h.2⟩ else none

/-- The point with an `x` coordinate and the one of the two `y` coordinates that `choose` wants. -/
def ofX? (choose : Nat → Nat → Bool) (x : Field) : Option Point := do
  let y ← Field.sqrt? (rightSide x)
  let other := Field.ofNat 0 - y
  some (affine x (if choose y.val other.val then y else other))

/-- The point that octets encode: with both coordinates, with `x` and the parity of `y`, or with `x`
alone, which stands for the smaller `y`. The neutral point is not accepted. -/
def decode : Octets → Option Point
  | [] => none
  | mark :: rest =>
      if mark = 0x04 then do
        let x ← coordinate? (rest.take 32)
        let y ← coordinate? (rest.drop 32)
        if onCurve x y then some (affine x y) else none
      else do
        let x ← coordinate? rest
        match mark with
        | 0x02 => ofX? (fun y _ => y % 2 = 0) x
        | 0x03 => ofX? (fun y _ => y % 2 = 1) x
        | 0x05 => ofX? (fun y other => y ≤ other) x
        | _ => none

end Point

/-- A private key: a number from one to below the order. -/
structure PrivateKey where
  scalar : Nat
  pos : 0 < scalar
  lt_order : scalar < order
  deriving DecidableEq

namespace PrivateKey

/-- The private key with a number, if there is one. -/
def ofNat? (n : Nat) : Option PrivateKey :=
  if h : 0 < n ∧ n < order then some ⟨n, h.1, h.2⟩ else none

/-- The private key of octets: 24 to 32 of them, zeros to be thought before them. -/
def ofOctets? (bytes : Octets) : Option PrivateKey :=
  if 24 ≤ bytes.length ∧ bytes.length ≤ 32 then ofNat? (Octets.toNat bytes) else none

/-- The 32 octets of a private key. -/
def octets (k : PrivateKey) : Octets :=
  Octets.ofNat 32 k.scalar

/-- The point that is the public half of a private key. -/
def point (k : PrivateKey) : Point :=
  Point.mul k.scalar Point.generator

/-- The public half of a private key, with both coordinates. -/
def publicOctets (k : PrivateKey) : Octets :=
  k.point.encode

end PrivateKey

end P256

end SecureElement.Crypto
