import SecureElement.Der.ObjectId

/-!
Algorithm identifiers: an object identifier and, for some algorithms, parameters of any form.
-/

namespace SecureElement.X509

open Der

/-- An algorithm and its parameters, which are kept as they stand. -/
structure AlgorithmId where
  oid : ObjectId
  parameters : Option Element
  deriving DecidableEq, Repr

namespace AlgorithmId

/-- An algorithm identifier as an element. -/
def element (a : AlgorithmId) : Element :=
  .sequence (a.oid.element :: a.parameters.toList)

/-- The algorithm identifier that an element is. -/
def ofElement? (e : Element) : Option AlgorithmId := do
  match ← e.sequence? with
  | [oid] => some ⟨← ObjectId.ofElement? oid, none⟩
  | [oid, parameters] => some ⟨← ObjectId.ofElement? oid, some parameters⟩
  | _ => none

/-- The object identifier that the parameters are, such as the name of a curve. -/
def parametersOid? (a : AlgorithmId) : Option ObjectId :=
  a.parameters.bind ObjectId.ofElement?

end AlgorithmId

/-- Signatures by ECDSA over a SHA-256 digest. -/
def oidEcdsaWithSha256 : ObjectId := .ofArcs [1, 2, 840, 10045, 4, 3, 2]

/-- Public keys that are points of an elliptic curve. -/
def oidEcPublicKey : ObjectId := .ofArcs [1, 2, 840, 10045, 2, 1]

/-- The curve P-256. -/
def oidP256 : ObjectId := .ofArcs [1, 2, 840, 10045, 3, 1, 7]

/-- The algorithm identifier of ECDSA with SHA-256, which takes no parameters. -/
def ecdsaWithSha256 : AlgorithmId := ⟨oidEcdsaWithSha256, none⟩

end SecureElement.X509
