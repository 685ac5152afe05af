import SecureElement.Der.Integer
import SecureElement.X509.PublicKeyInfo
import SecureElement.X509.Name
import SecureElement.X509.Time
import SecureElement.X509.Serial
import SecureElement.X509.Extension

/-!
Certificates: what is signed, and the signature. `Certificate.encode` and `Certificate.decode` are
its octets and the way back.
-/

namespace SecureElement.X509

open Der

/-- The versions of certificates. -/
inductive Version where
  | v1
  | v2
  | v3
  deriving DecidableEq, Repr

namespace Version

/-- The number that stands for a version. -/
def number : Version → Nat
  | v1 => 0
  | v2 => 1
  | v3 => 2

/-- The version that a number stands for. -/
def ofNumber? : Nat → Option Version
  | 0 => some v1
  | 1 => some v2
  | 2 => some v3
  | _ => none

/-- The field of a version; the first version is not written. -/
def fields : Version → List Element
  | v1 => []
  | v => [.ofElements (contextConstructed 0) [.ofNat v.number]]

/-- The version that a field says, the first if there is no field. -/
def ofField? : Option Element → Option Version
  | none => some v1
  | some field => do ofNumber? (← (← field.wrapped? (contextConstructed 0)).nat?)

end Version

/-- The part of a certificate that is signed. -/
structure ToBeSigned where
  version : Version
  serial : Serial
  algorithm : AlgorithmId
  issuer : Name
  validity : Validity
  subject : Name
  publicKey : PublicKeyInfo
  issuerId : Option BitString
  subjectId : Option BitString
  extensions : Option (List Extension)
  deriving DecidableEq

/-- A certificate. -/
structure Certificate where
  body : ToBeSigned
  algorithm : AlgorithmId
  signature : BitString
  deriving DecidableEq

namespace ToBeSigned

/-- A bit string under a tag of the context class. -/
def bitsField (number : UInt8) (bits : BitString) : Element :=
  ⟨contextPrimitive number, bits.content⟩

/-- The field of the extensions. -/
def extensionsField (extensions : List Extension) : Element :=
  .ofElements (contextConstructed 3) [.sequence (extensions.map Extension.element)]

/-- What is signed, as an element. -/
def element (b : ToBeSigned) : Element :=
  .sequence (b.version.fields ++
    [b.serial.element, b.algorithm.element, b.issuer.element, b.validity.element,
      b.subject.element, b.publicKey.element] ++
    (b.issuerId.map (bitsField 1)).toList ++
    (b.subjectId.map (bitsField 2)).toList ++
    (b.extensions.map extensionsField).toList)

/-- The bit string of an optional field; the outer option tells whether the field is sound. -/
def bitsOfField? (number : UInt8) : Option Element → Option (Option BitString)
  | none => some none
  | some field => do
      some (some (← BitString.ofContent? (← field.content? (contextPrimitive number))))

/-- The extensions of an optional field; the outer option tells whether the field is sound. -/
def extensionsOfField? : Option Element → Option (Option (List Extension))
  | none => some none
  | some field => do
      let list ← (← field.wrapped? (contextConstructed 3)).sequence?
      some (some (← list.mapM Extension.ofElement?))

/-- The signed part that an element is. -/
def ofElement? (e : Element) : Option ToBeSigned := do
  let (version, fields) := takeContext 0 (← e.sequence?)
  match fields with
  | serial :: algorithm :: issuer :: validity :: subject :: publicKey :: fields =>
      let (issuerId, fields) := takeContext 1 fields
      let (subjectId, fields) := takeContext 2 fields
      let (extensions, fields) := takeContext 3 fields
      guard (fields = [])
      some {
        version := ← Version.ofField? version
        serial := ← Serial.ofElement? serial
        algorithm := ← AlgorithmId.ofElement? algorithm
        issuer := ← Name.ofElement? issuer
        validity := ← Validity.ofElement? validity
        subject := ← Name.ofElement? subject
        publicKey := ← PublicKeyInfo.ofElement? publicKey
        issuerId := ← bitsOfField? 1 issuerId
        subjectId := ← bitsOfField? 2 subjectId
        extensions := ← extensionsOfField? extensions }
  | _ => none

/-- The octets that are signed. -/
def encode (b : ToBeSigned) : Octets :=
  b.element.encode

end ToBeSigned

namespace Certificate

/-- A certificate as an element. -/
def element (c : Certificate) : Element :=
  .sequence [c.body.element, c.algorithm.element, c.signature.element]

/-- The certificate that an element is. -/
def ofElement? (e : Element) : Option Certificate := do
  match ← e.sequence? with
  | [body, algorithm, signature] =>
      some ⟨← ToBeSigned.ofElement? body, ← AlgorithmId.ofElement? algorithm,
        ← BitString.ofElement? signature⟩
  | _ => none

/-- The octets of a certificate. -/
def encode (c : Certificate) : Octets :=
  c.element.encode

/-- The certificate that an octet string is. -/
def decode (bytes : Octets) : Option Certificate := do
  ofElement? (← Element.decode bytes)

end Certificate

end SecureElement.X509
