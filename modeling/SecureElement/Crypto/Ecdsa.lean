import SecureElement.Crypto.Hmac
import SecureElement.Crypto.P256
import SecureElement.Crypto.Sha256
import SecureElement.Der.Integer

/-!
Signatures over P-256 with SHA-256. The secret number of a signature is derived from the key and the
message, so that the same inputs give the same signature.
-/

namespace SecureElement.Crypto.Ecdsa

open P256 Der

/-- A signature: two numbers below the order. -/
structure Signature where
  r : Nat
  s : Nat
  deriving DecidableEq, Repr

namespace Signature

/-- A signature as an element. -/
def element (σ : Signature) : Element :=
  .sequence [.ofNat σ.r, .ofNat σ.s]

/-- The octets of a signature. -/
def encode (σ : Signature) : Octets :=
  σ.element.encode

/-- Whether a number may stand in a signature. -/
def inRange (n : Nat) : Bool :=
  1 ≤ n && n < order

/-- The signature that an octet string is. -/
def decode (bytes : Octets) : Option Signature := do
  match ← (← Element.decode bytes).sequence? with
  | [r, s] =>
      let r ← r.nat?
      let s ← s.nat?
      if inRange r && inRange s then some ⟨r, s⟩ else none
  | _ => none

end Signature

/-- The number of a message that is signed: its digest modulo the order. -/
def messageNumber (message : Octets) : Nat :=
  Octets.toNat (sha256.hash message) % order

/-! ### The secret number of a signature -/

/-- A generator of octets: a key and a value, both of the size of a digest. -/
structure Generator where
  key : Octets
  value : Octets
  deriving DecidableEq, Repr

namespace Generator

/-- The next value. -/
def advance (g : Generator) : Generator :=
  { g with value := hmac sha256 g.key g.value }

/-- The generator after a mark and further data have been mixed into its key. -/
def mixIn (g : Generator) (mark : UInt8) (data : Octets) : Generator :=
  advance { g with key := hmac sha256 g.key (g.value ++ mark :: data) }

/-- The generator for a key and a message. -/
def start (key : PrivateKey) (number : Nat) : Generator :=
  let data := key.octets ++ Octets.ofNat 32 number
  let g : Generator := ⟨List.replicate 32 0x00, List.replicate 32 0x01⟩
  (g.mixIn 0x00 data).mixIn 0x01 data

/-- The first of at most `attempts` values that is a number from one to below the order, and one if
there is none among them. -/
def secret : (attempts : Nat) → Generator → Nat
  | 0, _ => 1
  | attempts + 1, g =>
      let g := g.advance
      let k := Octets.toNat g.value
      if Signature.inRange k then k else secret attempts (g.mixIn 0x00 [])

end Generator

/-- How many values are tried for the secret number; one in four thousand million does not fit. -/
def attempts : Nat := 64

/-- The secret number for a message under a key. -/
def secretFor (key : PrivateKey) (number : Nat) : Nat :=
  (Generator.start key number).secret attempts

/-- The `x` coordinate of a point modulo the order; zero for the neutral point. -/
def xModOrder : Point → Nat
  | .infinity => 0
  | .affine x _ => x.val % order

/-- The signature of a message. -/
def sign (key : PrivateKey) (message : Octets) : Signature :=
  let number := messageNumber message
  let k := secretFor key number
  let r := xModOrder (Point.mul k Point.generator)
  let s := Modular.inverse order k * (number + r * key.scalar) % order
  ⟨r, s⟩

/-- Whether a signature of a message holds under a public key. -/
def verify (key : Point) (message : Octets) (σ : Signature) : Bool :=
  let w := Modular.inverse order σ.s
  let u₁ := messageNumber message * w % order
  let u₂ := σ.r * w % order
  let sum := Point.add (Point.mul u₁ Point.generator) (Point.mul u₂ key)
  sum != .infinity && xModOrder sum == σ.r

end SecureElement.Crypto.Ecdsa
