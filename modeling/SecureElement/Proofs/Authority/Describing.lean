import SecureElement.Proofs.Authority.Issuing
import SecureElement.Proofs.Authority.Signatures

/-!
Which certificates that are signed can be described.

A certificate is signed for any point that a key can be, and described for points with both coordinates
only. Nothing else that is signed is refused when it is described, whatever the names, the dates, the serial
number and the identifiers are (`describe_signed_iff`).
-/

namespace SecureElement

open Der X509 Crypto Authority Definition

/-- A point with both coordinates is the only one of the two forms that is described. -/
theorem Crypto.P256.Point.isUncompressedPoint_encode (x y : P256.Field) :
    CertDefinition.isUncompressedPoint (P256.Point.affine x y).encode = true := by
  simp [CertDefinition.isUncompressedPoint, P256.Point.encode, Octets.length_ofNat]

theorem Crypto.P256.Point.Shortened.not_isUncompressedPoint {octets : Octets}
    (short : P256.Point.Shortened octets) : ¬ CertDefinition.isUncompressedPoint octets = true := by
  simp [CertDefinition.isUncompressedPoint, short.length]

namespace Authority

variable {requestText serialText : String} {issuer certificate : Certificate} {request : Request}
  {key : P256.PrivateKey} {years : Nat} {now : Moment} {kind : CertKind}

/-- The point of a request's key is that of its octets. -/
theorem decode_of_p256Point? {info : PublicKeyInfo} {point : P256.Point}
    (found : p256Point? info = some point) : P256.Point.decode info.key.octets = some point :=
  (Option.ite_none_right_eq_some.1 found).2

/-- What is issued has the key of a request that was accepted. -/
theorem exists_point_of_issue
    (issued : issue requestText issuer key serialText years now = .ok certificate) :
    ∃ request point, parseRequest requestText = .ok request ∧
      p256Point? request.info.publicKey = some point ∧
      certificate.body.publicKey = request.info.publicKey := by
  obtain ⟨request, notBefore, notAfter, issuerId, serial, parsed, verified, -, -, -, -, -, rfl, -⟩ :=
    issue_eq_ok_iff.1 issued
  obtain ⟨-, point, found, -⟩ := verifyRequest_eq_ok_iff.1 verified
  exact ⟨request, point, parsed, found, rfl⟩

theorem ofText_certificateText :
    CertDefinition.ofText (certificateText certificate) kind =
      CertDefinition.ofCertificate certificate.encode kind := by
  simp only [CertDefinition.ofText, decodePem_certificateText, bind, Except.bind]

/-- Whether an issued certificate is described is told by the key of the request. -/
theorem ofCertificate_of_issue
    (issued : issue requestText issuer key serialText years now = .ok certificate)
    (parsed : parseRequest requestText = .ok request) :
    ((∃ d, CertDefinition.ofCertificate certificate.encode kind = .ok d) ↔
      ∃ x y, request.info.publicKey.key.octets = (P256.Point.affine x y).encode) ∧
    ∀ e, CertDefinition.ofCertificate certificate.encode kind = .error e ↔
      P256.Point.Shortened request.info.publicKey.key.octets ∧ e = .input .pointForm := by
  obtain ⟨request', point, parsed', found, same⟩ := exists_point_of_issue issued
  rw [parsed] at parsed'
  cases parsed'
  rcases P256.Point.eq_encode_or_shortened (decode_of_p256Point? found) with ⟨both, x, y, rfl⟩ | short
  · have full := P256.Point.isUncompressedPoint_encode x y
    rw [← both] at full
    obtain ⟨d, described⟩ := exists_definition_of_issue parsed full issued kind
    rw [described]
    constructor
    · exact iff_of_true ⟨d, rfl⟩ ⟨x, y, both⟩
    · intro e
      refine iff_of_false (fun failed => by cases failed) ?_
      rintro ⟨short, -⟩
      exact short.not_isUncompressedPoint full
  · have decoded := decode_of_issue issued
    obtain ⟨l⟩ := Layout.exists_of_decode decoded
    have refused : CertDefinition.ofCertificate certificate.encode kind = .error (.input .pointForm) := by
      rw [l.ofCertificate_eq decoded, same, if_neg short.not_isUncompressedPoint]
      rfl
    rw [refused]
    constructor
    · refine iff_of_false (fun ⟨_, made⟩ => by cases made) ?_
      rintro ⟨x, y, both⟩
      rw [both] at short
      exact short.not_isUncompressedPoint (P256.Point.isUncompressedPoint_encode x y)
    · intro e
      rw [Except.error.injEq, eq_comm]
      exact (and_iff_right short).symm

/-- For every input: what is signed is described exactly if the key of the request has both coordinates. If
signing and describing fails, then nothing was signed, or what was signed is for a point with one coordinate
and is refused for that. -/
theorem describe_signed_iff :
    ((∃ d, (signRequest requestText issuer key serialText years now >>= fun text =>
        CertDefinition.ofText text kind) = .ok d) ↔
      ∃ text request x y, signRequest requestText issuer key serialText years now = .ok text ∧
        parseRequest requestText = .ok request ∧
        request.info.publicKey.key.octets = (P256.Point.affine x y).encode) ∧
    ∀ e, (signRequest requestText issuer key serialText years now >>= fun text =>
        CertDefinition.ofText text kind) = .error e ↔
      signRequest requestText issuer key serialText years now = .error e ∨
      ∃ text request, signRequest requestText issuer key serialText years now = .ok text ∧
        parseRequest requestText = .ok request ∧
        P256.Point.Shortened request.info.publicKey.key.octets ∧ e = .input .pointForm := by
  -- What was signed is the text of a certificate that was issued for a request.
  have issued : ∀ {text}, signRequest requestText issuer key serialText years now = .ok text →
      ∃ certificate, issue requestText issuer key serialText years now = .ok certificate ∧
        CertDefinition.ofText text kind = CertDefinition.ofCertificate certificate.encode kind := by
    intro text signed
    obtain ⟨certificate, issued, rfl⟩ := signRequest_eq_ok_iff.1 signed
    exact ⟨certificate, issued, ofText_certificateText⟩
  constructor
  · simp only [bind_eq_ok_iff]
    constructor
    · rintro ⟨d, text, signed, described⟩
      obtain ⟨certificate, issued, same⟩ := issued signed
      obtain ⟨request, point, parsed, -⟩ := exists_point_of_issue issued
      rw [same] at described
      obtain ⟨x, y, both⟩ := (ofCertificate_of_issue issued parsed).1.1 ⟨d, described⟩
      exact ⟨text, request, x, y, signed, parsed, both⟩
    · rintro ⟨text, request, x, y, signed, parsed, both⟩
      obtain ⟨certificate, issued, same⟩ := issued signed
      obtain ⟨d, described⟩ := (ofCertificate_of_issue issued parsed).1.2 ⟨x, y, both⟩
      exact ⟨d, text, signed, same.trans described⟩
  · intro e
    rw [bind_eq_error_iff]
    refine or_congr_right ?_
    constructor
    · rintro ⟨text, signed, failed⟩
      obtain ⟨certificate, issued, same⟩ := issued signed
      obtain ⟨request, point, parsed, -⟩ := exists_point_of_issue issued
      rw [same] at failed
      exact ⟨text, request, signed, parsed, ((ofCertificate_of_issue issued parsed).2 e).1 failed⟩
    · rintro ⟨text, request, signed, parsed, refused⟩
      obtain ⟨certificate, issued, same⟩ := issued signed
      exact ⟨text, signed, same.trans (((ofCertificate_of_issue issued parsed).2 e).2 refused)⟩

end Authority

end SecureElement
