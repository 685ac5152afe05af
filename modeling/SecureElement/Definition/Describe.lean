import SecureElement.Authority.Material
import SecureElement.Definition.Placed

/-!
Certificate definitions: a certificate as a template, and the places in it of everything that
differs from one chip to the next. A secure element keeps such a description and puts whole
certificates together on demand.

`CertDefinition.ofCertificate` describes a certificate, with the certificate itself as the template.
-/

namespace SecureElement

open Der X509 Authority Definition

/-- Whose certificate a definition describes. -/
inductive CertKind where
  | device
  | signer
  deriving DecidableEq, Repr

/-- A certificate as a template with places in it. -/
structure CertDefinition where
  kind : CertKind
  template : Octets
  tbsCert : Location
  serialNumber : Location
  issueDate : Location
  issueForm : TimeForm
  expireDate : Location
  expireForm : TimeForm
  /-- Both coordinates of the subject's public key. -/
  publicKey : Location
  signature : Location
  subjectKeyId : Location
  authorityKeyId : Location
  expireYears : Nat
  deriving DecidableEq, Repr

namespace CertDefinition

/-- The fields of the signed part after its version. -/
def withoutVersion (bytes : Octets) : List Placed → List Placed
  | [] => []
  | first :: rest => if first.tag bytes = contextConstructed 0 then rest else first :: rest

/-- The elements of the extensions, among the fields of the signed part. -/
def placedExtensions (bytes : Octets) (fields : List Placed) : Except SigningError (List Placed) :=
  match fields.find? fun f => f.tag bytes = contextConstructed 3 with
  | none => .ok []
  | some wrapper => do
      match ← wrapper.children bytes with
      | [list] => list.children bytes
      | _ => refuse (.malformedPart .extensions)

/-- The places of the two key identifiers. -/
structure KeyIdPlaces where
  subject : Location
  authority : Location
  deriving DecidableEq, Repr

/-- The element in the value of an extension. -/
def placedValue (bytes : Octets) (extension : Placed) : Except SigningError Placed := do
  match (← extension.children bytes).getLast? with
  | none => refuse (.malformedPart .extensionValue)
  | some octets => Placed.read bytes octets.value.offset octets.value.stop

/-- The places of key identifiers after one more extension; others do not count. -/
def notePlaces (bytes : Octets) (places : KeyIdPlaces) (extension : Extension) (placed : Placed) :
    Except SigningError KeyIdPlaces := do
  if extension.oid = Extension.oidSubjectKeyId then
    let inner ← placedValue bytes placed
    return { places with subject := inner.value }
  else if extension.oid = Extension.oidAuthorityKeyId then
    let inner ← placedValue bytes placed
    match (← inner.children bytes).find? fun f => f.tag bytes = contextPrimitive 0 with
    | some id => return { places with authority := id.value }
    | none => return places
  else return places

/-- The places of the key identifiers in all extensions, the last of each kind. -/
def keyIdPlaces (bytes : Octets) (extensions : List Extension) (placed : List Placed) :
    Except SigningError KeyIdPlaces :=
  (extensions.zip placed).foldlM (fun places (x, p) => notePlaces bytes places x p)
    ⟨.absent, .absent⟩

/-- The field of the signed part at a place, counted after the version. -/
def fieldAt (fields : List Placed) (i : Nat) : Except SigningError Placed :=
  orRefuse (.malformedPart .tbsCertificate) fields[i]?

/-- Whether the octets of a public key are those of a point with both coordinates. -/
def isUncompressedPoint (point : Octets) : Bool :=
  point.length == 65 && point.head? == some 0x04

/-- The definition of a certificate. -/
def ofCertificate (bytes : Octets) (kind : CertKind) : Except SigningError CertDefinition := do
  let certificate ← orRefuse .encoding (Certificate.decode bytes)
  let body := certificate.body
  let outer ← Placed.read bytes 0 bytes.length
  match ← outer.children bytes with
  | [placedBody, _, placedSignature] =>
      let fields ← placedBody.children bytes
      let known := withoutVersion bytes fields
      let serial ← fieldAt known 0
      let validity ← fieldAt known 3
      match ← validity.children bytes with
      | [notBefore, notAfter] =>
          if ¬ isUncompressedPoint body.publicKey.key.octets then refuse .pointForm
          let keyInfo ← fieldAt known 5
          match ← keyInfo.children bytes with
          | [_, keyBits] =>
              let extensions := body.extensions.getD []
              let placed ← placedExtensions bytes fields
              if placed.length ≠ extensions.length then refuse (.malformedPart .extensions)
              let places ← keyIdPlaces bytes extensions placed
              let bits := placedSignature.value
              if bits.count = 0 then refuse (.malformedPart .signature)
              return {
                kind
                template := bytes
                tbsCert := placedBody.whole
                serialNumber := serial.value
                issueDate := notBefore.value
                issueForm := body.validity.notBefore.form
                expireDate := notAfter.value
                expireForm := body.validity.notAfter.form
                publicKey := ⟨keyBits.value.offset + 2, 64⟩
                signature := ⟨bits.offset + 1, bits.count - 1⟩
                subjectKeyId := places.subject
                authorityKeyId := places.authority
                expireYears := body.validity.notAfter.date.year - body.validity.notBefore.date.year }
          | _ => refuse (.malformedPart .subjectPublicKeyInfo)
      | _ => refuse (.malformedPart .validity)
  | _ => refuse (.malformedPart .certificate)

/-- The definition of the certificate in a text. -/
def ofText (text : Octets) (kind : CertKind) : Except SigningError CertDefinition := do
  ofCertificate (← decodePem text certificateLabel) kind

end CertDefinition

end SecureElement
