import SecureElement.Der.Integer
import SecureElement.X509.PublicKeyInfo
import SecureElement.X509.Name

/-!
Certificate signing requests: a name and a public key, with attributes, signed by that key.
-/

namespace SecureElement.X509

open Der

/-- An attribute of a request: a set of values of any form, in the order of their encodings. -/
structure RequestAttribute where
  oid : ObjectId
  values : List Element
  deriving DecidableEq, Repr

namespace RequestAttribute

/-- An attribute as an element. -/
def element (a : RequestAttribute) : Element :=
  .sequence [a.oid.element, .ofElements tagSet a.values]

/-- The octets of an attribute, by which attributes are ordered. -/
def encode (a : RequestAttribute) : Octets :=
  a.element.encode

/-- The attribute that an element is. -/
def ofElement? (e : Element) : Option RequestAttribute := do
  match ← e.sequence? with
  | [oid, values] =>
      some ⟨← ObjectId.ofElement? oid, ← sortMembers Element.encode (← values.elements? tagSet)⟩
  | _ => none

end RequestAttribute

/-- The part of a request that is signed. -/
structure RequestInfo where
  subject : Name
  publicKey : PublicKeyInfo
  attributes : List RequestAttribute
  deriving DecidableEq, Repr

/-- A certificate signing request. -/
structure Request where
  info : RequestInfo
  algorithm : AlgorithmId
  signature : BitString
  deriving DecidableEq, Repr

namespace RequestInfo

/-- The signed part as an element; the version is always the first. -/
def element (i : RequestInfo) : Element :=
  .sequence [.ofNat 0, i.subject.element, i.publicKey.element,
    .ofElements (contextConstructed 0) (i.attributes.map RequestAttribute.element)]

/-- The signed part that an element is. -/
def ofElement? (e : Element) : Option RequestInfo := do
  match ← e.sequence? with
  | [version, subject, publicKey, attributes] =>
      guard (version.nat? = some 0)
      let members ← attributes.elements? (contextConstructed 0)
      some ⟨← Name.ofElement? subject, ← PublicKeyInfo.ofElement? publicKey,
        ← sortMembers RequestAttribute.encode (← members.mapM RequestAttribute.ofElement?)⟩
  | _ => none

/-- The octets that are signed. -/
def encode (i : RequestInfo) : Octets :=
  i.element.encode

end RequestInfo

namespace Request

/-- A request as an element. -/
def element (r : Request) : Element :=
  .sequence [r.info.element, r.algorithm.element, r.signature.element]

/-- The octets of a request. -/
def encode (r : Request) : Octets :=
  r.element.encode

/-- The request that an octet string is. -/
def decode (bytes : Octets) : Option Request := do
  match ← (← Element.decode bytes).sequence? with
  | [info, algorithm, signature] =>
      some ⟨← RequestInfo.ofElement? info, ← AlgorithmId.ofElement? algorithm,
        ← BitString.ofElement? signature⟩
  | _ => none

end Request

end SecureElement.X509
