import SecureElement.Proofs.Authority.Serials
import SecureElement.Proofs.Authority.Texts
import SecureElement.Proofs.Definition.Describable
import SecureElement.Proofs.X509.Certificates
import SecureElement.Proofs.X509.Requests
import SecureElement.Proofs.Time.Calendar

/-!
Issuing certificates.

A sound request is refused for one of five reasons only, none of which is in the request
(`issue_eq_error_iff`). A certificate that is issued is read back (`decode_of_issue`), and can be described
if the key of the request is a point with both coordinates (`exists_definition_of_issue`).
-/

namespace SecureElement.Authority

open Der X509 Crypto

/-! ### Why nothing is issued -/

/-- Why an authority cannot sign a sound request. -/
inductive Unsignable (request : Request) (issuer : Certificate) (key : P256.PrivateKey)
    (serialText : String) (years : Nat) (now : Moment) : Prop where
  /-- The private key is not the one of the issuer's certificate. -/
  | otherKey (other : issuer.body.publicKey.key.octets ≠ key.publicOctets)
  /-- The clock tells no time from 1970 to 9999. -/
  | undated (outside : now < 0 ∨ (lastSecond * nanosPerSecond : Nat) < now)
  /-- The certificate would be valid beyond 9999. -/
  | beyond (date : DateTime) (dated : issuanceTime now = .ok date) (late : 9999 < date.year + years)
  /-- The issuer's certificate has an identifier of its key that cannot be read. -/
  | unidentified (extension : Extension)
      (first : (issuer.body.extensions.getD []).find? (·.oid = Extension.oidSubjectKeyId) =
        some extension)
      (malformed : extension.subjectKeyId? = none)
  /-- The certificate would be longer than any that is read. -/
  | tooLong (notBefore notAfter : DateTime) (issuerId : Octets) (serial : Serial)
      (from_ : issuanceTime now = .ok notBefore) (upTo : addYears notBefore years = .ok notAfter)
      (identified : issuerKeyId issuer = .ok issuerId) (numbered : parseSerial serialText = .ok serial)
      (long : maxLength < (signBody key
        (certificateFor request issuer issuerId serial (.between notBefore notAfter))).encode.length)

section

variable {requestText serialText : String} {request : Request} {issuer : Certificate}
  {key : P256.PrivateKey} {years : Nat} {now : Moment}

theorem checkIssuerKey_eq_ok_iff {u : Unit} :
    checkIssuerKey issuer key = .ok u ↔ issuer.body.publicKey.key.octets = key.publicOctets := by
  unfold checkIssuerKey
  by_cases same : issuer.body.publicKey.key.octets = key.publicOctets
  · simp [same]
  · simp [same, refuse]

theorem issuerKeyId_eq_error_iff :
    (∃ e, issuerKeyId issuer = .error e) ↔
      ∃ extension, (issuer.body.extensions.getD []).find?
          (·.oid = Extension.oidSubjectKeyId) = some extension ∧
        extension.subjectKeyId? = none := by
  unfold issuerKeyId
  cases found : (issuer.body.extensions.getD []).find? (·.oid = Extension.oidSubjectKeyId) with
  | none => simp
  | some extension =>
      cases id : extension.subjectKeyId? with
      | none => simp [orRefuse, refuse, id]
      | some octets => simp [orRefuse, id]

/-- Every date is written in the form of its year. -/
theorem x509Time_eq_ok (date : DateTime) : x509Time date = .ok (.ofDateTime date) := by
  rw [x509Time, Time.ofDateTime?_eq_some]
  rfl

theorem periodBetween_eq_ok (notBefore notAfter : DateTime) :
    periodBetween notBefore notAfter = .ok (.between notBefore notAfter) := by
  rw [periodBetween, x509Time_eq_ok, x509Time_eq_ok]
  rfl

/-- What is issued, and what has to be so for it. -/
theorem issue_eq_ok_iff {certificate : Certificate} :
    issue requestText issuer key serialText years now = .ok certificate ↔
      ∃ request notBefore notAfter issuerId serial,
        parseRequest requestText = .ok request ∧ verifyRequest request = .ok () ∧
        issuer.body.publicKey.key.octets = key.publicOctets ∧
        issuanceTime now = .ok notBefore ∧ addYears notBefore years = .ok notAfter ∧
        issuerKeyId issuer = .ok issuerId ∧ parseSerial serialText = .ok serial ∧
        certificate = signBody key
          (certificateFor request issuer issuerId serial (.between notBefore notAfter)) ∧
        certificate.encode.length ≤ maxLength := by
  have issued : ∀ c : Certificate,
      (if c.encode.length ≤ maxLength then .ok c else refuse .encoding) =
        (.ok certificate : Except SigningError Certificate) ↔
      certificate = c ∧ certificate.encode.length ≤ maxLength := by
    intro c
    by_cases short : c.encode.length ≤ maxLength
    · rw [if_pos short]
      constructor
      · rintro ⟨⟩
        exact ⟨rfl, short⟩
      · rintro ⟨rfl, -⟩
        rfl
    · rw [if_neg short]
      constructor
      · intro h
        cases h
      · rintro ⟨rfl, short'⟩
        exact absurd short' short
  simp only [issue, bind_eq_ok_iff, checkIssuerKey_eq_ok_iff, periodBetween_eq_ok, Except.ok.injEq, issued,
    exists_eq_left']
  constructor
  · rintro ⟨request, parsed, ⟨⟩, verified, ⟨⟩, same, notBefore, dated, notAfter, later, issuerId,
      identified, serial, numbered, whole, short⟩
    exact ⟨request, notBefore, notAfter, issuerId, serial, parsed, verified, same, dated, later,
      identified, numbered, whole, short⟩
  · rintro ⟨request, notBefore, notAfter, issuerId, serial, parsed, verified, same, dated, later,
      identified, numbered, whole, short⟩
    exact ⟨request, parsed, (), verified, (), same, notBefore, dated, notAfter, later, issuerId,
      identified, serial, numbered, whole, short⟩

theorem exists_ok_of_not_error {ε α : Type} {x : Except ε α} (fine : ¬ ∃ e, x = .error e) :
    ∃ a, x = .ok a := by
  cases x with
  | error e => exact absurd ⟨e, rfl⟩ fine
  | ok a => exact ⟨a, rfl⟩

/-- A sound request is granted if nothing is wrong with the authority. -/
theorem exists_issue_of_not_unsignable (parsed : parseRequest requestText = .ok request)
    (verified : verifyRequest request = .ok ()) {serial : Serial}
    (numbered : parseSerial serialText = .ok serial)
    (signable : ¬ Unsignable request issuer key serialText years now) :
    ∃ certificate, issue requestText issuer key serialText years now = .ok certificate := by
  have same : issuer.body.publicKey.key.octets = key.publicOctets := by
    by_contra other
    exact signable (.otherKey other)
  obtain ⟨notBefore, dated⟩ : ∃ d, issuanceTime now = .ok d := by
    apply exists_ok_of_not_error
    intro failed
    exact signable (.undated (issuanceTime_eq_error_iff.1 failed))
  obtain ⟨notAfter, later⟩ : ∃ d, addYears notBefore years = .ok d := by
    apply exists_ok_of_not_error
    intro failed
    exact signable (.beyond notBefore dated (addYears_eq_error_iff.1 failed))
  obtain ⟨issuerId, identified⟩ : ∃ id, issuerKeyId issuer = .ok id := by
    apply exists_ok_of_not_error
    intro failed
    obtain ⟨extension, first, malformed⟩ := issuerKeyId_eq_error_iff.1 failed
    exact signable (.unidentified extension first malformed)
  by_cases short : (signBody key (certificateFor request issuer issuerId serial
      (.between notBefore notAfter))).encode.length ≤ maxLength
  · exact ⟨_, issue_eq_ok_iff.2 ⟨request, notBefore, notAfter, issuerId, serial, parsed, verified,
      same, dated, later, identified, numbered, rfl, short⟩⟩
  · exact absurd (.tooLong notBefore notAfter issuerId serial dated later identified numbered
      (Nat.not_le.1 short)) signable

/-- Nothing is wrong with an authority that grants a request. -/
theorem not_unsignable_of_issue (parsed : parseRequest requestText = .ok request)
    {certificate : Certificate}
    (issued : issue requestText issuer key serialText years now = .ok certificate) :
    ¬ Unsignable request issuer key serialText years now := by
  intro unsignable
  obtain ⟨request', notBefore, notAfter, issuerId, serial, parsed', -, same, dated, later,
    identified, numbered, rfl, short⟩ := issue_eq_ok_iff.1 issued
  rw [parsed] at parsed'
  cases parsed'
  cases unsignable with
  | otherKey other => exact other same
  | undated outside =>
      obtain ⟨e, failed⟩ := issuanceTime_eq_error_iff.2 outside
      rw [dated] at failed
      cases failed
  | beyond date dated' late =>
      rw [dated] at dated'
      cases dated'
      obtain ⟨e, failed⟩ := addYears_eq_error_iff.2 late
      rw [later] at failed
      cases failed
  | unidentified extension first malformed =>
      obtain ⟨e, failed⟩ := issuerKeyId_eq_error_iff.2 ⟨extension, first, malformed⟩
      rw [identified] at failed
      cases failed
  | tooLong notBefore' notAfter' issuerId' serial' dated' later' identified' numbered' long =>
      rw [dated] at dated'
      cases dated'
      rw [later] at later'
      cases later'
      rw [identified] at identified'
      cases identified'
      rw [numbered] at numbered'
      cases numbered'
      exact absurd short (Nat.not_le.2 long)

/-- A sound request is refused for reasons of the authority's only. -/
theorem issue_eq_error_iff (parsed : parseRequest requestText = .ok request)
    (verified : verifyRequest request = .ok ()) {serial : Serial}
    (numbered : parseSerial serialText = .ok serial) :
    (∃ e, issue requestText issuer key serialText years now = .error e) ↔
      Unsignable request issuer key serialText years now := by
  constructor
  · rintro ⟨e, failed⟩
    by_contra signable
    obtain ⟨certificate, issued⟩ :=
      exists_issue_of_not_unsignable parsed verified numbered signable
    rw [failed] at issued
    cases issued
  · intro unsignable
    by_contra fine
    obtain ⟨certificate, issued⟩ := exists_ok_of_not_error fine
    exact not_unsignable_of_issue parsed issued unsignable

end

/-! ### What is issued is read back -/

/-- The public key of a request was read. -/
theorem exists_publicKey_of_parseRequest {text : String} {request : Request}
    (parsed : parseRequest text = .ok request) :
    ∃ e, PublicKeyInfo.ofElement? e = some request.info.publicKey := by
  obtain ⟨content, -, decoded⟩ := parseRequest_eq_ok_iff.1 parsed
  obtain ⟨e, info, -, -, info_read⟩ := Request.exists_parts decoded
  obtain ⟨-, -, -, -, -, -, -, -, key_read, -⟩ := RequestInfo.exists_parts info_read
  exact ⟨_, key_read⟩

/-- The extensions of an issued certificate, for the identifiers of both keys. -/
def issuedExtensions (subjectId issuerId : Octets) : List Extension :=
  [.notAnAuthority, .subjectKeyId subjectId, .authorityKeyId issuerId]

theorem oids_issuedExtensions (subjectId issuerId : Octets) :
    ∀ x ∈ issuedExtensions subjectId issuerId,
      ObjectId.ofElement? x.oid.element = some x.oid := by
  intro x member
  simp only [issuedExtensions, List.mem_cons, List.not_mem_nil, or_false] at member
  rcases member with rfl | rfl | rfl
  · have read : ObjectId.ofElement? Extension.oidBasicConstraints.element =
        some Extension.oidBasicConstraints := by decide
    exact read
  · have read : ObjectId.ofElement? Extension.oidSubjectKeyId.element =
        some Extension.oidSubjectKeyId := by decide
    exact read
  · have read : ObjectId.ofElement? Extension.oidAuthorityKeyId.element =
        some Extension.oidAuthorityKeyId := by decide
    exact read

section

variable {request : Request} {issuer : Certificate} {issuerId : Octets} {serial : Serial}
  {period : Validity} {key : P256.PrivateKey}

theorem modern_certificateFor :
    (certificateFor request issuer issuerId serial period).Modern
      (issuedExtensions (keyId request.info.publicKey) issuerId) :=
  ⟨rfl, rfl, rfl, rfl⟩

/-- The fields of a certificate that is not too long are not either. -/
theorem fits_rows
    (fits : (signBody key (certificateFor request issuer issuerId serial period)).element.Fits) :
    (Element.sequence ((certificateFor request issuer issuerId serial period).rows
      (issuedExtensions (keyId request.info.publicKey) issuerId))).Fits := by
  rw [← modern_certificateFor.element_eq]
  exact fits.of_mem (by simp [signBody])

theorem fits_of_mem_issuedExtensions
    (fits : (signBody key (certificateFor request issuer issuerId serial period)).element.Fits) :
    ∀ x ∈ issuedExtensions (keyId request.info.publicKey) issuerId, x.element.Fits := by
  have field : (ToBeSigned.extensionsField
      (issuedExtensions (keyId request.info.publicKey) issuerId)).Fits :=
    (fits_rows fits).of_mem (by simp [ToBeSigned.rows])
  intro x member
  exact (field.of_mem (List.mem_singleton_self _)).of_mem (List.mem_map_of_mem member)

/-- A certificate is read back if the public key and the serial number in it are. -/
theorem decode_signBody {e : Element} {notBefore notAfter : DateTime}
    (key_read : PublicKeyInfo.ofElement? e = some request.info.publicKey)
    (integer : isInteger serial.content = true) (few : serial.content.length ≤ Serial.maxIssued)
    (fits : (signBody key
      (certificateFor request issuer issuerId serial (.between notBefore notAfter))).element.Fits) :
    Certificate.decode (signBody key
        (certificateFor request issuer issuerId serial (.between notBefore notAfter))).encode =
      some (signBody key (certificateFor request issuer issuerId serial (.between notBefore notAfter))) := by
  have rows := fits_rows fits
  have oid : ObjectId.ofElement? oidEcdsaWithSha256.element = some oidEcdsaWithSha256 := by
    decide +kernel
  have algorithm : AlgorithmId.ofElement? ecdsaWithSha256.element = some ecdsaWithSha256 :=
    AlgorithmId.ofElement?_element nofun oid (rows.of_mem (by simp [ToBeSigned.rows, certificateFor]))
  have readable : (certificateFor request issuer issuerId serial (.between notBefore notAfter)).Readable :=
    { serial := Serial.ofElement?_element integer (Nat.le_trans few (by decide))
      algorithm := algorithm
      issuer := Name.ofElement?_element (rows.of_mem (by simp [ToBeSigned.rows]))
      validity := Validity.ofElement?_between (rows.of_mem (by simp [ToBeSigned.rows, certificateFor]))
      subject := Name.ofElement?_element (rows.of_mem (by simp [ToBeSigned.rows]))
      publicKey := PublicKeyInfo.reread key_read }
  exact Certificate.decode_encode readable modern_certificateFor (oids_issuedExtensions _ _) algorithm
    (BitString.ofElement?_ofOctets _) fits

end

/-- An issued certificate is read back. -/
theorem decode_of_issue {requestText serialText : String} {issuer certificate : Certificate}
    {key : P256.PrivateKey} {years : Nat} {now : Moment}
    (issued : issue requestText issuer key serialText years now = .ok certificate) :
    Certificate.decode certificate.encode = some certificate := by
  obtain ⟨request, notBefore, notAfter, issuerId, serial, parsed, -, -, -, -, -, numbered, rfl,
    short⟩ := issue_eq_ok_iff.1 issued
  obtain ⟨e, key_read⟩ := exists_publicKey_of_parseRequest parsed
  obtain ⟨integer, few⟩ := content_of_parseSerial numbered
  exact decode_signBody key_read integer few (Element.fits_of_short short)

/-! ### What is issued can be described -/

/-- The value of an extension is no longer than the extension. -/
theorem length_value_le {x : Extension} (fits : x.element.Fits) : x.value.length ≤ maxLength := by
  have value : (Element.octetString x.value).Fits := Element.Fits.of_mem fits (by simp)
  exact value

theorem placeable_issuedExtensions {subjectId issuerId : Octets}
    (fits : ∀ x ∈ issuedExtensions subjectId issuerId, x.element.Fits) :
    ∀ x ∈ issuedExtensions subjectId issuerId, x.Placeable := by
  intro x member
  have value := length_value_le (fits x member)
  simp only [issuedExtensions, List.mem_cons, List.not_mem_nil, or_false] at member
  rcases member with rfl | rfl | rfl
  · constructor
    · intro same
      exact absurd same (by decide)
    · intro same
      exact absurd same (by decide)
  · have sound : (Element.octetString subjectId).Sound :=
      ⟨rfl, Element.fits_of_short value⟩
    constructor
    · intro _
      exact ⟨_, [], Element.read_of_decode (Element.decode_encode sound)⟩
    · intro same
      exact absurd same Extension.oidSubjectKeyId_ne
  · have tag : isTag (contextPrimitive 0) = true := by decide
    have sound : (Element.sequence [⟨contextPrimitive 0, issuerId⟩]).Sound :=
      ⟨rfl, Element.fits_of_short value⟩
    constructor
    · intro same
      exact absurd same.symm Extension.oidSubjectKeyId_ne
    · intro _
      exact ⟨_, [], _, Element.read_of_decode (Element.decode_encode sound),
        Element.readAll_encodeAll (Element.sound_of_tags sound.fits (by simp [tag]))⟩

/-- An issued certificate can be described if the key of the request is a point with both
coordinates. -/
theorem exists_definition_of_issue {requestText serialText : String} {request : Request}
    {issuer certificate : Certificate} {key : P256.PrivateKey} {years : Nat} {now : Moment}
    (parsed : parseRequest requestText = .ok request)
    (point : CertDefinition.isUncompressedPoint request.info.publicKey.key.octets = true)
    (issued : issue requestText issuer key serialText years now = .ok certificate) (kind : CertKind) :
    ∃ definition, CertDefinition.ofCertificate certificate.encode kind = .ok definition := by
  have decoded := decode_of_issue issued
  obtain ⟨request', notBefore, notAfter, issuerId, serial, parsed', -, -, -, -, -, -, rfl, short⟩ :=
    issue_eq_ok_iff.1 issued
  rw [parsed] at parsed'
  cases parsed'
  have placeable := placeable_issuedExtensions (fits_of_mem_issuedExtensions (Element.fits_of_short short))
  exact CertDefinition.exists_ofCertificate decoded point placeable kind

end SecureElement.Authority
