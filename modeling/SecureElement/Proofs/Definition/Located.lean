import SecureElement.Proofs.Definition.KeyIds

/-!
Definitions locate the parts of their certificates.

Every place in a definition is inside the certificate, is the place of the part that it is named for, and
holds the octets that the certificate has there (`CertDefinition.exists_layout_of_ofCertificate`).
-/

namespace SecureElement

open Der X509 Definition

namespace CertDefinition

/-- The places in a definition are those of the parts of a certificate, inside the octets that hold it. -/
structure Locates (d : CertDefinition) {bytes : Octets} {c : Certificate} (l : Layout bytes c) : Prop where
  /-- The whole of what is signed. -/
  tbsCert : d.tbsCert = l.body.place.whole
  tbsCert_holds : d.tbsCert.Holds bytes l.body.element.encode
  serialNumber : d.serialNumber = l.row.serial.place.value
  serialNumber_holds : d.serialNumber.Holds bytes c.body.serial.content
  issueDate : d.issueDate = l.notBefore.place.value
  issueDate_holds : d.issueDate.Holds bytes l.notBefore.element.content
  issueForm : d.issueForm = .utc ↔ l.notBefore.element.tag = tagUtcTime
  expireDate : d.expireDate = l.notAfter.place.value
  expireDate_holds : d.expireDate.Holds bytes l.notAfter.element.content
  expireForm : d.expireForm = .utc ↔ l.notAfter.element.tag = tagUtcTime
  /-- Two octets come before the coordinates: the count of unused bits and the form of the point. -/
  publicKey : d.publicKey = ⟨l.keyBits.place.value.offset + 2, 64⟩
  publicKey_holds : d.publicKey.Holds bytes ((c.body.publicKey.key.octets.drop 1).take 64)
  /-- The count of unused bits comes before the signature. -/
  signature : d.signature =
    ⟨l.signature.place.value.offset + 1, l.signature.place.value.count - 1⟩
  signature_holds : d.signature.Holds bytes c.signature.octets
  subjectKeyId : Latest (fun x => x.extension.oid = Extension.oidSubjectKeyId)
    ExtensionSpot.HoldsSubjectId .absent l.extensions d.subjectKeyId
  subjectKeyId_inside : d.subjectKeyId.stop ≤ bytes.length
  authorityKeyId : Latest (fun x => ∃ id, x.HoldsAuthorityId id)
    ExtensionSpot.HoldsAuthorityId .absent l.extensions d.authorityKeyId
  authorityKeyId_inside : d.authorityKeyId.stop ≤ bytes.length

variable {bytes : Octets} {c : Certificate} (l : Layout bytes c)

theorem holds_serial : l.row.serial.place.value.Holds bytes c.body.serial.content := by
  have written : c.body.serial.element = l.row.serial.element :=
    Serial.element_of_ofElement? l.row_reads.serial
  have holds := l.row.serial.value_holds
  rw [← written] at holds
  exact holds

/-- The coordinates of a point are its octets after the first. -/
theorem holds_coordinates (point : isUncompressedPoint c.body.publicKey.key.octets = true) :
    Location.Holds ⟨l.keyBits.place.value.offset + 2, 64⟩ bytes
      ((c.body.publicKey.key.octets.drop 1).take 64) := by
  have content : l.keyBits.element.content = c.body.publicKey.key.content := by
    rw [l.keyBits_holds]
    rfl
  have size : c.body.publicKey.key.octets.length = 65 := by
    simp only [isUncompressedPoint, Bool.and_eq_true, beq_iff_eq] at point
    exact point.1
  have room : 2 + 64 ≤ l.keyBits.place.value.count := by
    rw [l.keyBits.value_count, content, BitString.content, List.length_cons, size]
  have holds := l.keyBits.value_holds.part room
  rw [content] at holds
  exact holds

theorem holds_signature :
    Location.Holds ⟨l.signature.place.value.offset + 1, l.signature.place.value.count - 1⟩ bytes
      c.signature.octets := by
  have content : l.signature.element.content = c.signature.content := by
    rw [l.signature_holds]
    rfl
  have room : 1 + (l.signature.place.value.count - 1) ≤ l.signature.place.value.count := by
    rw [l.signature_count]
    omega
  have holds := l.signature.value_holds.part room
  rw [content, l.signature_count, Nat.add_sub_cancel] at holds
  rw [l.signature_count, Nat.add_sub_cancel]
  have whole : (c.signature.content.drop 1).take c.signature.octets.length = c.signature.octets :=
    List.take_length
  rw [whole] at holds
  exact holds

/-- The definition that is made for a layout has the places of the layout. -/
theorem locates_definition {kind : CertKind} {places : KeyIdPlaces}
    (point : isUncompressedPoint c.body.publicKey.key.octets = true)
    (found : keyIdPlaces bytes (c.body.extensions.getD []) (l.extensions.map (·.whole.place)) =
      .ok places) : (l.definition kind places).Locates l := by
  rw [← l.extensions_read] at found
  obtain ⟨subject, authority⟩ := ExtensionSpot.latest_of_keyIdPlaces found
  have utc : ∀ {e : Element} {t : Time}, Time.ofElement? e = some t →
      (t.form = .utc ↔ e.tag = tagUtcTime) := by
    intro e t read
    rw [Time.tag_of_ofElement? read, Time.tag_eq_utc_iff]
  exact {
    tbsCert := rfl
    tbsCert_holds := l.body.whole_holds
    serialNumber := rfl
    serialNumber_holds := holds_serial l
    issueDate := rfl
    issueDate_holds := l.notBefore.value_holds
    issueForm := utc l.notBefore_read
    expireDate := rfl
    expireDate_holds := l.notAfter.value_holds
    expireForm := utc l.notAfter_read
    publicKey := rfl
    publicKey_holds := holds_coordinates l point
    signature := rfl
    signature_holds := holds_signature l
    subjectKeyId := subject
    subjectKeyId_inside := subject.inside
    authorityKeyId := authority
    authorityKeyId_inside := authority.inside }

/-- A definition that is made locates every part of the certificate that the octets hold. -/
theorem exists_layout_of_ofCertificate {kind : CertKind} {d : CertDefinition}
    (described : ofCertificate bytes kind = .ok d) :
    ∃ c, Certificate.decode bytes = some c ∧ ∃ l : Layout bytes c, d.Locates l := by
  have decoded : ∃ c, Certificate.decode bytes = some c := by
    unfold ofCertificate at described
    obtain ⟨c, decoded, -⟩ := Authority.bind_eq_ok_iff.1 described
    exact ⟨c, Authority.orRefuse_eq_ok_iff.1 decoded⟩
  obtain ⟨c, decoded⟩ := decoded
  obtain ⟨l⟩ := Layout.exists_of_decode decoded
  obtain ⟨point, places, found, rfl⟩ := (l.ofCertificate_eq_ok_iff decoded).1 described
  exact ⟨c, decoded, l, locates_definition l point found⟩

/-- A certificate without a version, with both identifiers before its extensions, with a long signature,
and with more than one extension for each key. Only the first of those for the authority's key holds an
identifier. -/
def bareCertificate : Certificate where
  body :=
    { version := .v1
      serial := ⟨[2]⟩
      algorithm := ecdsaWithSha256
      issuer := ⟨[], by simp⟩
      validity :=
        { notBefore := ⟨.utc, ⟨1999, 12, 31, 23, 59, 59, by decide⟩⟩
          notAfter := ⟨.generalized, ⟨2050, 1, 1, 0, 0, 0, by decide⟩⟩ }
      subject := ⟨[], by simp⟩
      publicKey := .ofP256Point (0x04 :: List.replicate 64 7)
      issuerId := some (.ofOctets [1])
      subjectId := some (.ofOctets [2])
      extensions := some [.subjectKeyId [3], .authorityKeyId [4],
        ⟨Extension.oidSubjectKeyId, true, (Element.octetString [5]).encode⟩,
        ⟨Extension.oidAuthorityKeyId, false, (Element.sequence []).encode⟩] }
  algorithm := ecdsaWithSha256
  signature := .ofOctets (List.replicate 200 6)

theorem exists_layout_of_bareCertificate :
    ∃ d, ofCertificate bareCertificate.encode .device = .ok d ∧
      d.subjectKeyId.slice bareCertificate.encode = [5] ∧
      d.authorityKeyId.slice bareCertificate.encode = [4] ∧
      ∃ c, Certificate.decode bareCertificate.encode = some c ∧
        ∃ l : Layout bareCertificate.encode c, d.Locates l := by
  have made : (ofCertificate bareCertificate.encode .device).toOption.map (fun d =>
      (d.subjectKeyId.slice bareCertificate.encode, d.authorityKeyId.slice bareCertificate.encode)) =
        some ([5], [4]) := by decide +kernel
  cases described : ofCertificate bareCertificate.encode .device with
  | error e =>
      rw [described] at made
      cases made
  | ok d =>
      rw [described] at made
      obtain ⟨subject, authority⟩ := Prod.mk.inj (Option.some.inj made)
      exact ⟨d, rfl, subject, authority, exists_layout_of_ofCertificate described⟩

end CertDefinition

end SecureElement
