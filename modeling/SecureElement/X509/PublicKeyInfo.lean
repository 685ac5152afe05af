import SecureElement.Der.BitString
import SecureElement.X509.AlgorithmId

/-!
Public keys of any algorithm, as certificates and requests carry them.
-/

namespace SecureElement.X509

open Der

/-- A public key and the algorithm that it is for. -/
structure PublicKeyInfo where
  algorithm : AlgorithmId
  key : BitString
  deriving DecidableEq, Repr

namespace PublicKeyInfo

/-- A public key as an element. -/
def element (k : PublicKeyInfo) : Element :=
  .sequence [k.algorithm.element, k.key.element]

/-- The public key that an element is. -/
def ofElement? (e : Element) : Option PublicKeyInfo := do
  match ← e.sequence? with
  | [algorithm, key] => some ⟨← AlgorithmId.ofElement? algorithm, ← BitString.ofElement? key⟩
  | _ => none

/-- The public key of P-256 with a point in the given form. -/
def ofP256Point (point : Octets) : PublicKeyInfo :=
  ⟨⟨oidEcPublicKey, some oidP256.element⟩, .ofOctets point⟩

end PublicKeyInfo

end SecureElement.X509
