import SecureElement.Der.ObjectId
import SecureElement.Octets.Hex

/-!
Extensions of certificates, and the three that issued certificates carry: basic constraints and the
identifiers of the subject's and of the authority's key.
-/

namespace SecureElement.X509

open Der

/-- An extension; its value is an octet string that holds an element of its own. -/
structure Extension where
  oid : ObjectId
  critical : Bool
  value : Octets
  deriving DecidableEq, Repr

namespace Extension

/-- An extension as an element; what is not critical is not said to be. -/
def element (x : Extension) : Element :=
  .sequence (x.oid.element :: (if x.critical then [.ofTrue] else []) ++ [.octetString x.value])

/-- The extension that an element is. -/
def ofElement? (e : Element) : Option Extension := do
  match ← e.sequence? with
  | [oid, value] => some ⟨← ObjectId.ofElement? oid, false, ← value.octetString?⟩
  | [oid, critical, value] =>
      some ⟨← ObjectId.ofElement? oid, ← critical.bool?, ← value.octetString?⟩
  | _ => none

/-- Tells whether the subject is an authority itself. -/
def oidBasicConstraints : ObjectId := .ofArcs [2, 5, 29, 19]

/-- Identifies the subject's key. -/
def oidSubjectKeyId : ObjectId := .ofArcs [2, 5, 29, 14]

/-- Identifies the key that signed the certificate. -/
def oidAuthorityKeyId : ObjectId := .ofArcs [2, 5, 29, 35]

/-- The critical extension that says that the subject is no authority. -/
def notAnAuthority : Extension :=
  ⟨oidBasicConstraints, true, (Element.sequence []).encode⟩

/-- The identifier of the subject's key. -/
def subjectKeyId (id : Octets) : Extension :=
  ⟨oidSubjectKeyId, false, (Element.octetString id).encode⟩

/-- The identifier of the key that signed. -/
def authorityKeyId (id : Octets) : Extension :=
  ⟨oidAuthorityKeyId, false, (Element.sequence [⟨contextPrimitive 0, id⟩]).encode⟩

/-- The identifier in the value of an extension that identifies the subject's key. -/
def subjectKeyId? (x : Extension) : Option Octets := do
  (← Element.decode x.value).octetString?

end Extension

end SecureElement.X509
