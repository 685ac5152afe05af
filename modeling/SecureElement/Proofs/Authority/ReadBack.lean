import SecureElement.Proofs.Authority.Issuing
import SecureElement.Proofs.Authority.Signatures

/-!
Issued certificates as they are read.

What is signed for a request is the text of one certificate, which is read from it again: a certificate of
the third version for the name and the key of the request, with three extensions, whose signature is over
the octets that stand in the text (`signRequest_eq_ok_iff_readsBack`).
-/

namespace SecureElement

open Der X509 Crypto Authority Definition

/-- An extension tells an element under an identifier. -/
structure X509.Extension.Tells (x : Extension) (oid : ObjectId) (critical : Bool) (e : Element) :
    Prop where
  oid : x.oid = oid
  critical : x.critical = critical
  value : Element.decode x.value = some e

theorem X509.Extension.tells_iff {x : Extension} {oid : ObjectId} {critical : Bool} {e : Element} :
    x.Tells oid critical e ↔ x = ⟨oid, critical, e.encode⟩ ∧ e.Sound := by
  constructor
  · intro tells
    obtain ⟨oid', critical', value⟩ := x
    obtain rfl := tells.oid
    obtain rfl := tells.critical
    have written : e.encode = value := Element.encode_of_decode tells.value
    exact ⟨by rw [written], Element.sound_of_decode tells.value⟩
  · rintro ⟨rfl, sound⟩
    exact ⟨rfl, rfl, Element.decode_encode sound⟩

/-- The identifier of an issuer's key: the first that its certificate tells, or else the digest of the
key. -/
inductive X509.Certificate.IsIssuerKeyId (issuer : Certificate) : Octets → Prop
  | told {x : Extension} {id : Octets}
      (first : (issuer.body.extensions.getD []).find? (·.oid = Extension.oidSubjectKeyId) = some x)
      (value : x.subjectKeyId? = some id) : IsIssuerKeyId issuer id
  | digest (none : ∀ x ∈ issuer.body.extensions.getD [], x.oid ≠ Extension.oidSubjectKeyId) :
      IsIssuerKeyId issuer ((sha256.hash issuer.body.publicKey.key.octets).take 20)

theorem Authority.issuerKeyId_eq_ok_iff {issuer : Certificate} {id : Octets} :
    issuerKeyId issuer = .ok id ↔ issuer.IsIssuerKeyId id := by
  unfold issuerKeyId
  cases first : (issuer.body.extensions.getD []).find? (·.oid = Extension.oidSubjectKeyId) with
  | none =>
      have none : ∀ x ∈ issuer.body.extensions.getD [], x.oid ≠ Extension.oidSubjectKeyId := by
        intro x member
        simpa using List.find?_eq_none.1 first x member
      constructor
      · rintro ⟨⟩
        exact .digest none
      · intro identifies
        cases identifies with
        | told first' value =>
            rw [first] at first'
            cases first'
        | digest _ => rfl
  | some x =>
      rw [orRefuse_eq_ok_iff]
      constructor
      · intro value
        exact .told first value
      · intro identifies
        cases identifies with
        | told first' value =>
            rw [first] at first'
            cases first'
            exact value
        | digest none =>
            exact absurd (by simpa using List.find?_some first) (none x (List.mem_of_find?_eq_some first))

/-- A certificate is as it should be for a request, the certificate of its signer, a serial number
and two dates. -/
structure X509.Certificate.BuiltFor (c : Certificate) (request : Request) (signer : Certificate)
    (serial : Serial) (notBefore notAfter : DateTime) : Prop where
  version : c.body.version = .v3
  serial : c.body.serial = serial
  algorithm : c.body.algorithm = ⟨oidEcdsaWithSha256, none⟩
  issuer : c.body.issuer = signer.body.subject
  validity : c.body.validity = ⟨.ofDateTime notBefore, .ofDateTime notAfter⟩
  subject : c.body.subject = request.info.subject
  publicKey : c.body.publicKey = request.info.publicKey
  issuerId : c.body.issuerId = none
  subjectId : c.body.subjectId = none
  /-- There is nothing in the basic constraints, so that the subject is no authority. -/
  extensions : ∃ constraints subject authority issuerId,
    c.body.extensions = some [constraints, subject, authority] ∧
    constraints.Tells Extension.oidBasicConstraints true (.sequence []) ∧
    subject.Tells Extension.oidSubjectKeyId false
      (.octetString ((sha256.hash request.info.publicKey.key.octets).take 20)) ∧
    signer.IsIssuerKeyId issuerId ∧
    authority.Tells Extension.oidAuthorityKeyId false (.sequence [⟨contextPrimitive 0, issuerId⟩])
  outerAlgorithm : c.algorithm = ⟨oidEcdsaWithSha256, none⟩

/-- The period of a certificate is in the dates that it was made for. -/
theorem X509.Certificate.BuiltFor.dates {c signer : Certificate} {request : Request} {serial : Serial}
    {notBefore notAfter : DateTime} (built : c.BuiltFor request signer serial notBefore notAfter) :
    c.body.validity.notBefore.date = notBefore ∧ c.body.validity.notAfter.date = notAfter := by
  rw [built.validity]
  exact ⟨Time.date_ofDateTime _, Time.date_ofDateTime _⟩

/-- The signature of a certificate is that of a key over the octets of its signed part, as they stand in
the octets that it was read from. -/
def X509.Certificate.SignedOver (c : Certificate) (key : P256.PrivateKey) (content : Octets) : Prop :=
  ∃ l : Layout content c, l.body.place.whole.stop ≤ content.length ∧
    c.signature = .ofOctets (Ecdsa.sign key (l.body.place.whole.slice content)).encode

/-- The signature of a certificate holds under a public key, over the octets of its signed part as they
stand in the octets that it was read from. -/
def X509.Certificate.HoldsUnder (c : Certificate) (point : P256.Point) (content : Octets) : Prop :=
  ∃ l : Layout content c, Ecdsa.Accepts point (l.body.place.whole.slice content) c.signature.octets

/-- What a key signs holds under the key in a certificate that has its public half. -/
theorem X509.Certificate.SignedOver.holdsUnder {c signer : Certificate} {key : P256.PrivateKey}
    {content : Octets} {point : P256.Point} (signed : c.SignedOver key content)
    (same : signer.body.publicKey.key.octets = key.publicOctets)
    (accepts : ∀ message, Ecdsa.Accepts key.point message (Ecdsa.sign key message).encode)
    (decoded : P256.Point.decode signer.body.publicKey.key.octets = some point) :
    c.HoldsUnder point content := by
  obtain ⟨l, -, signature⟩ := signed
  rw [same] at decoded
  obtain rfl := P256.Point.eq_of_decode_encode decoded
  refine ⟨l, ?_⟩
  rw [signature]
  exact accepts _

namespace Authority

variable {requestText serialText : String} {request : Request} {issuer certificate : Certificate}
  {issuerId : Octets} {serial : Serial} {key : P256.PrivateKey} {notBefore notAfter : DateTime}
  {years : Nat} {now : Moment}

/-- What is signed of a certificate is as it should be for one identifier of its issuer's key. -/
theorem exists_of_builtFor (built : certificate.BuiltFor request issuer serial notBefore notAfter) :
    ∃ issuerId, issuerKeyId issuer = .ok issuerId ∧
      certificate.body = certificateFor request issuer issuerId serial (.between notBefore notAfter) ∧
      certificate.algorithm = ecdsaWithSha256 := by
  obtain ⟨version, serial_eq, algorithm, issuer_eq, validity, subject_eq, publicKey, none₁, none₂,
    extensions, outer⟩ := built
  obtain ⟨constraints, subject, authority, issuerId, listed, endEntity, subjectId, identified,
    authorityId⟩ := extensions
  obtain ⟨rfl, -⟩ := Extension.tells_iff.1 endEntity
  obtain ⟨rfl, -⟩ := Extension.tells_iff.1 subjectId
  obtain ⟨rfl, -⟩ := Extension.tells_iff.1 authorityId
  obtain ⟨body, outerAlgorithm, signature⟩ := certificate
  obtain ⟨⟩ := body
  dsimp only at *
  subst_vars
  exact ⟨issuerId, issuerKeyId_eq_ok_iff.2 identified, rfl, rfl⟩

theorem builtFor_signBody (identified : issuerKeyId issuer = .ok issuerId)
    (fits : (signBody key
      (certificateFor request issuer issuerId serial (.between notBefore notAfter))).element.Fits) :
    (signBody key (certificateFor request issuer issuerId serial (.between notBefore notAfter))).BuiltFor request
      issuer serial notBefore notAfter := by
  have told : ∀ {oid : ObjectId} {critical : Bool} {e : Element}, isTag e.tag = true →
      (⟨oid, critical, e.encode⟩ : Extension) ∈
        issuedExtensions (keyId request.info.publicKey) issuerId →
      (⟨oid, critical, e.encode⟩ : Extension).Tells oid critical e := by
    intro oid critical e tag member
    have value := length_value_le (fits_of_mem_issuedExtensions fits _ member)
    exact Extension.tells_iff.2 ⟨rfl, tag, Element.fits_of_short value⟩
  refine ⟨rfl, rfl, rfl, rfl, rfl, rfl, rfl, rfl, rfl, ?_, rfl⟩
  refine ⟨.notAnAuthority, .subjectKeyId (keyId request.info.publicKey), .authorityKeyId issuerId,
    issuerId, rfl, ?_, ?_, issuerKeyId_eq_ok_iff.1 identified, ?_⟩
  · exact told rfl (by simp [issuedExtensions, Extension.notAnAuthority])
  · exact told rfl (by simp [issuedExtensions, Extension.subjectKeyId, keyId, keyIdSize])
  · exact told rfl (by simp [issuedExtensions, Extension.authorityKeyId])

/-- The signature of a certificate that is not too long is over the signed part as it was written. -/
theorem signedOver_iff (fits : certificate.element.Fits)
    (decoded : Certificate.decode certificate.encode = some certificate) :
    certificate.SignedOver key certificate.encode ↔
      certificate.signature = .ofOctets (Ecdsa.sign key certificate.body.encode).encode := by
  have slice : ∀ l : Layout certificate.encode certificate,
      l.body.place.whole.slice certificate.encode = certificate.body.encode := by
    intro l
    rw [l.body.whole_holds.slice, l.body_element fits]
    rfl
  constructor
  · rintro ⟨l, -, signed⟩
    rw [← slice l]
    exact signed
  · intro signed
    obtain ⟨l⟩ := Layout.exists_of_decode decoded
    refine ⟨l, l.body.whole_holds.inside, ?_⟩
    rw [slice l]
    exact signed

/-- A text holds a certificate that is as it should be, and is signed over the octets in the text. The
signature holds under the key in the signer's certificate, if what a key signs holds under its public
half. -/
structure ReadsBack (text : Octets) (request : Request) (signer : Certificate) (key : P256.PrivateKey)
    (serial : Serial) (notBefore notAfter : DateTime) (certificate : Certificate) : Prop where
  parsed : parseCertificate text = .ok certificate
  built : certificate.BuiltFor request signer serial notBefore notAfter
  signed : ∃ content, decodePem text certificateLabel = .ok content ∧
    certificate.SignedOver key content ∧
    ((∀ message, Ecdsa.Accepts key.point message (Ecdsa.sign key message).encode) →
      ∀ point, P256.Point.decode signer.body.publicKey.key.octets = some point →
        certificate.HoldsUnder point content)

/-- Without the white space around it a text that is not indented is read alike. -/
theorem ReadsBack.trimAscii {text : Octets}
    (back : ReadsBack text request issuer key serial notBefore notAfter certificate)
    (unindented : ¬ Pem.Indented text) :
    ReadsBack (Octets.trimAscii text) request issuer key serial notBefore notAfter certificate := by
  obtain ⟨content, held, decoded⟩ := parseCertificate_eq_ok_iff.1 back.parsed
  obtain ⟨signedContent, found, signed⟩ := back.signed
  constructor
  · exact parseCertificate_eq_ok_iff.2 ⟨content, decodePem_trimAscii held unindented, decoded⟩
  · exact back.built
  · exact ⟨signedContent, decodePem_trimAscii found unindented, signed⟩

/-- The text of an issued certificate is read back. -/
theorem readsBack_of_issue
    (issued : issue requestText issuer key serialText years now = .ok certificate) :
    ∃ request notBefore notAfter serial, parseRequest requestText = .ok request ∧
      verifyRequest request = .ok () ∧ issuer.body.publicKey.key.octets = key.publicOctets ∧
      issuanceTime now = .ok notBefore ∧ addYears notBefore years = .ok notAfter ∧
      parseSerial serialText = .ok serial ∧ certificate.encode.length ≤ maxLength ∧
      ReadsBack (certificateText certificate) request issuer key serial notBefore notAfter
        certificate := by
  have decoded := decode_of_issue issued
  have text := decodePem_certificateText certificate
  obtain ⟨request, notBefore, notAfter, issuerId, serial, parsed, verified, same, dated, later,
    identified, numbered, rfl, short⟩ := issue_eq_ok_iff.1 issued
  have fits := Element.fits_of_short short
  have signed := (signedOver_iff fits decoded).2 rfl
  refine ⟨request, notBefore, notAfter, serial, parsed, verified, same, dated, later, numbered, short, ?_⟩
  constructor
  · exact parseCertificate_eq_ok_iff.2 ⟨_, text, decoded⟩
  · exact builtFor_signBody identified fits
  · exact ⟨_, text, signed, fun accepts point found => signed.holdsUnder same accepts found⟩

/-- What is signed for a request is the text of the one certificate, not too long, that is read from it as
it should be. -/
theorem signRequest_eq_ok_iff_readsBack {text : Octets} :
    signRequest requestText issuer key serialText years now = .ok text ↔
      ∃ request notBefore notAfter serial certificate, parseRequest requestText = .ok request ∧
        verifyRequest request = .ok () ∧ issuer.body.publicKey.key.octets = key.publicOctets ∧
        issuanceTime now = .ok notBefore ∧ addYears notBefore years = .ok notAfter ∧
        parseSerial serialText = .ok serial ∧ certificate.encode.length ≤ maxLength ∧
        text = certificateText certificate ∧
        ReadsBack text request issuer key serial notBefore notAfter certificate := by
  rw [signRequest_eq_ok_iff]
  constructor
  · rintro ⟨certificate, issued, rfl⟩
    obtain ⟨request, notBefore, notAfter, serial, parsed, verified, same, dated, later, numbered, short,
      back⟩ := readsBack_of_issue issued
    exact ⟨request, notBefore, notAfter, serial, certificate, parsed, verified, same, dated, later,
      numbered, short, rfl, back⟩
  · rintro ⟨request, notBefore, notAfter, serial, certificate, parsed, verified, same, dated, later,
      numbered, short, rfl, back⟩
    have text := decodePem_certificateText certificate
    obtain ⟨content, held, decoded⟩ := parseCertificate_eq_ok_iff.1 back.parsed
    rw [text] at held
    cases held
    obtain ⟨content, held, signed, -⟩ := back.signed
    rw [text] at held
    cases held
    have fits := Element.fits_of_short short
    have signature := (signedOver_iff fits decoded).1 signed
    obtain ⟨issuerId, identified, body, algorithm⟩ := exists_of_builtFor back.built
    have whole : certificate = signBody key
        (certificateFor request issuer issuerId serial (.between notBefore notAfter)) := by
      obtain ⟨body', algorithm', signature'⟩ := certificate
      dsimp only at body algorithm signature
      rw [signature, body, algorithm]
      rfl
    exact ⟨certificate, issue_eq_ok_iff.2 ⟨request, notBefore, notAfter, issuerId, serial, parsed,
      verified, same, dated, later, identified, numbered, whole, short⟩, rfl⟩

end Authority

end SecureElement
