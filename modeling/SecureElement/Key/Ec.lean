import SecureElement.Crypto.P256
import SecureElement.Der.BitString
import SecureElement.Der.Integer
import SecureElement.Der.ObjectId

/-!
Private keys of elliptic curves in the form that holds nothing else: the scalar, and optionally the
curve and the public half.

`ofOctets?` gives the P-256 key. The public half has to be that of the scalar, with both coordinates
or compressed; the curve that is named is read and not used.
-/

namespace SecureElement.Key

open Der Crypto

/-- A private key of an elliptic curve. -/
structure EcKey where
  scalar : Octets
  curve : Option ObjectId
  publicKey : Option Octets
  deriving DecidableEq, Repr

namespace EcKey

/-- The octets of a point with its `x` coordinate and the parity of `y`. -/
def compressed : P256.Point → Octets
  | .infinity => [0x00]
  | .affine x y => (if y.val % 2 = 0 then 0x02 else 0x03) :: Octets.ofNat 32 x.val

/-- A private key as an element. -/
def element (k : EcKey) : Element :=
  .sequence ([.ofNat 1, .octetString k.scalar] ++
    (k.curve.map fun oid => .ofElements (contextConstructed 0) [oid.element]).toList ++
    (k.publicKey.map fun point =>
      .ofElements (contextConstructed 1) [(BitString.ofOctets point).element]).toList)

/-- The octets of a private key. -/
def encode (k : EcKey) : Octets :=
  k.element.encode

/-- The object identifier that an optional field wraps; the outer option tells whether the field is
sound. -/
def curveOfField? : Option Element → Option (Option ObjectId)
  | none => some none
  | some field => do
      some (some (← ObjectId.ofElement? (← field.wrapped? (contextConstructed 0))))

/-- The whole octets that an optional field wraps; the outer option tells whether the field is
sound. -/
def pointOfField? : Option Element → Option (Option Octets)
  | none => some none
  | some field => do
      let bits ← BitString.ofElement? (← field.wrapped? (contextConstructed 1))
      if bits.unused = 0 then some (some bits.octets) else none

/-- The private key that an octet string is. -/
def decode (bytes : Octets) : Option EcKey := do
  match ← (← Element.decode bytes).sequence? with
  | version :: scalar :: fields =>
      guard (version.nat? = some 1)
      let (curve, fields) := takeContext 0 fields
      let (publicKey, fields) := takeContext 1 fields
      guard (fields = [])
      some ⟨← scalar.octetString?, ← curveOfField? curve, ← pointOfField? publicKey⟩
  | _ => none

/-- A private key of P-256 with its public half. -/
def ofPrivateKey (key : P256.PrivateKey) : EcKey :=
  ⟨key.octets, none, some key.publicOctets⟩

/-- The P-256 key, if the scalar is in range and any public half is that of the scalar. -/
def privateKey? (k : EcKey) : Option P256.PrivateKey := do
  let key ← P256.PrivateKey.ofOctets? k.scalar
  match k.publicKey with
  | none => some key
  | some given =>
      let point := key.point
      if given = point.encode ∨ given = compressed point then some key else none

/-- The P-256 key that an octet string is. -/
def ofOctets? (bytes : Octets) : Option P256.PrivateKey := do
  (← decode bytes).privateKey?

end EcKey

end SecureElement.Key
