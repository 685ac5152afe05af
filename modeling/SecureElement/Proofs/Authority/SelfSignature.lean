import SecureElement.Proofs.Authority.Signatures
import SecureElement.Proofs.X509.Requests

/-!
What the signature of a request is checked over.

The signature is checked over the request as it is written, which has the members of every set in the order
of their encodings. So it is checked over the octets that were received if every set was in order, and over
other octets if not (`verifyRequest_iff_of_parseRequest`).
-/

namespace SecureElement.Authority

open Der X509 Crypto

/-- A text holds a request whose signed part stands in it as it was received: at the start of the sequence
that makes up the document. -/
def Received (text : String) (request : Request) (r : ReceivedInfo) : Prop :=
  decodePem (Utf8.encode (Text.trim text)) requestLabel =
    .ok (Element.sequence [r.element, request.algorithm.element, request.signature.element]).encode

/-- A request that is read was received in a text. -/
theorem exists_received {text : String} {request : Request}
    (parsed : parseRequest text = .ok request) :
    ∃ r, Received text request r ∧ r.Arranged request.info ∧ r.element.encode.length ≤ maxLength := by
  obtain ⟨content, held, decoded⟩ := parseRequest_eq_ok_iff.1 parsed
  obtain ⟨e, info, whole, row, read⟩ := Request.exists_parts decoded
  obtain ⟨r, rfl, arranged⟩ := RequestInfo.exists_received read
  have written := Element.ofElements_of_elements? row
  refine ⟨r, ?_, arranged, ?_⟩
  · rw [Received, Element.sequence, written, Element.encode_of_decode whole]
    exact held
  · have fits := (Element.sound_of_decode whole).fits
    rw [← written] at fits
    exact Nat.le_trans (Element.length_encode_le_encodeAll (List.mem_cons_self ..)) fits

/-- For every request that is read: it was received in the text, and is the same request with every set in
order. If it has a P-256 key and a signature of the expected form, then it is accepted exactly if the
signature holds over the octets of the request with every set in order. These are the octets that were
received exactly if every set was in order there; then it is accepted exactly if the signature holds over
the octets that were received. -/
theorem verifyRequest_iff_of_parseRequest {text : String} {request : Request}
    (parsed : parseRequest text = .ok request) :
    ∃ r, Received text request r ∧ r.Arranged request.info ∧
      (request.info.encode = r.element.encode ↔ r.Ordered) ∧
      ∀ point σ, request.algorithm.oid = oidEcdsaWithSha256 → p256Point? r.publicKey = some point →
        Ecdsa.Signature.decode request.signature.octets = some σ →
        (verifyRequest request = .ok () ↔ Ecdsa.verify point request.info.encode σ = true) ∧
        (r.Ordered → (verifyRequest request = .ok () ↔
          Ecdsa.verify point r.element.encode σ = true)) := by
  obtain ⟨r, holds, arranged, short⟩ := exists_received parsed
  have same := arranged.encode_eq_iff short
  refine ⟨r, holds, arranged, same, fun point σ algorithm key signature => ?_⟩
  rw [← arranged.publicKey] at key
  have accepted :
      verifyRequest request = .ok () ↔ Ecdsa.verify point request.info.encode σ = true := by
    rw [verifyRequest_eq_ok_iff]
    constructor
    · rintro ⟨-, point', key', σ', signature', valid⟩
      rw [key] at key'
      rw [signature] at signature'
      cases key'
      cases signature'
      exact valid
    · intro valid
      exact ⟨algorithm, point, key, σ, signature, valid⟩
  refine ⟨accepted, fun ordered => ?_⟩
  rw [← same.2 ordered]
  exact accepted

/-! ### A request that was changed after it was signed -/

/-- A name of one part, with its two attributes in the wrong order. -/
def swappedInfo : ReceivedInfo where
  parts := [[⟨.ofArcs [2, 5, 4, 3], ⟨tagUtf8String, Octets.ofAscii "ESP32 Device"⟩⟩,
    ⟨.ofArcs [2, 5, 4, 10], ⟨tagUtf8String, Octets.ofAscii "Espressif"⟩⟩]]
  publicKey := .ofP256Point (0x04 ::
    Octets.ofNat 32 0x462DBA1AE4FC1A968B4DACF20CDD6DBE1FAE34AA971514A63D3405C3D1CFD383 ++
    Octets.ofNat 32 0xB58BBB08C13383428C5853C71C4C851E134B056821E468FE0A977ABF4313DDE1)
  attributes := []

/-- The signature of the request with the attributes in order. -/
def swappedSignature : Ecdsa.Signature where
  r := 0x20F667BC233B2B3D49A321C7955BAB9DA7114EBB5965C4BB6606470D71217268
  s := 0xD00493289EBE3CCDCB7FF23C82C75815046E78C28A1FCC657491FE6CF4D317EE

/-- The request with the attributes in the wrong order. -/
def swappedElement : Element :=
  .sequence [swappedInfo.element, ecdsaWithSha256.element,
    (BitString.ofOctets swappedSignature.encode).element]

/-- The text of that request. -/
def swappedText : String := Octets.toAscii (Pem.encode ⟨requestLabel, swappedElement.encode⟩)

theorem verifyRequest_iff_of_swappedText :
    ∃ request r, parseRequest swappedText = .ok request ∧ Received swappedText request r ∧
      r.Arranged request.info ∧ ¬ r.Ordered ∧ request.info.encode ≠ r.element.encode := by
  have read : (Request.decode swappedElement.encode).isSome = true := by decide +kernel
  have moved : (Request.decode swappedElement.encode).map (·.info.encode) ≠
      some swappedInfo.element.encode := by decide +kernel
  have short : swappedElement.encode.length ≤ maxLength := by decide +kernel
  obtain ⟨request, decoded⟩ := Option.isSome_iff_exists.1 read
  have held := decodePem_requestText (Element.encode_ne_nil swappedElement)
  have parsed : parseRequest swappedText = .ok request :=
    parseRequest_eq_ok_iff.2 ⟨swappedElement.encode, held, decoded⟩
  obtain ⟨r, holds, arranged, same, -⟩ := verifyRequest_iff_of_parseRequest parsed
  have received : r.element = swappedInfo.element := by
    have whole := Element.encode_inj short (Except.ok.inj (holds.symm.trans held))
    have fits := Element.fits_of_short short
    rw [← whole] at fits
    exact List.head_eq_of_cons_eq (Element.ofElements_inj fits whole)
  have other : request.info.encode ≠ r.element.encode := by
    intro kept
    rw [decoded, Option.map_some, kept, received] at moved
    exact moved rfl
  exact ⟨request, r, parsed, holds, arranged, fun ordered => other (same.2 ordered), other⟩

end SecureElement.Authority
