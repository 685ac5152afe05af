import SecureElement.Proofs.Authority.Describing
import SecureElement.Proofs.Authority.ReadBack
import SecureElement.Proofs.Definition.Located
import SecureElement.Proofs.Time.Seconds

/-!
Signed certificates are described as they were signed.

What the places in a definition hold is told by the inputs of the signing alone: the dates by the clock and
the number of years, the serial number by its text, the coordinates by the key of the request, and the
identifiers by that key and the issuer's certificate (`signed_and_described_iff`).
-/

namespace SecureElement

open Der X509 Crypto Authority Definition

/-! ### Dates -/

/-- A date whose seconds are those of full hours is on the hour. -/
theorem DateTime.on_the_hour {d : DateTime} {hours : Nat} (full : d.toSeconds = hours * 3600) :
    d.minute = 0 ∧ d.second = 0 := by
  obtain ⟨-, -, -, -, -, -, -, minute, second⟩ := d.valid
  unfold DateTime.toSeconds at full
  omega

/-- The characters of a date on the hour. The year has two digits up to 2049, and four from 2050 on. -/
def DateTime.hourChars (d : DateTime) : List Char :=
  (if d.year < 2050 then Decimal.fixed 2 d.year else Decimal.fixed 4 d.year) ++
    Decimal.fixed 2 d.month ++ Decimal.fixed 2 d.day ++ Decimal.fixed 2 d.hour ++
    ['0', '0', '0', '0', 'Z']

/-- A stretch of octets holds a date on the hour, in the form that is used in its year. -/
structure DateTime.StandsAt (d : DateTime) (bytes : Octets) (l : Location) (form : TimeForm) : Prop where
  holds : l.Holds bytes (d.hourChars.map fun c => UInt8.ofNat c.toNat)
  form : form = if d.year < 2050 then .utc else .generalized

theorem X509.Time.chars_ofDateTime {d : DateTime} (hour : d.minute = 0 ∧ d.second = 0) :
    (ofDateTime d).chars = d.hourChars := by
  obtain ⟨minute, second⟩ := hour
  have zeros : Decimal.fixed 2 0 = ['0', '0'] := rfl
  unfold ofDateTime DateTime.hourChars
  by_cases short : d.year < 2050
  · rw [if_pos (show d.year < generalizedFrom from short), if_pos short]
    simp only [chars, minute, second, zeros, List.append_assoc]
    rfl
  · rw [if_neg (show ¬ d.year < generalizedFrom from short), if_neg short]
    simp only [chars, minute, second, zeros, List.append_assoc]
    rfl

/-- A date on the hour stands where it is read. -/
theorem DateTime.standsAt_of_spot {bytes : Octets} {d : DateTime} {t : Time} {s : Spot bytes}
    (read : Time.ofElement? s.element = some t) (same : t = .ofDateTime d)
    (hour : d.minute = 0 ∧ d.second = 0) : d.StandsAt bytes s.place.value t.form := by
  subst same
  have holds := s.value_holds
  rw [← Time.element_of_ofElement? read, Time.element, Time.chars_ofDateTime hour] at holds
  exact ⟨holds, Time.form_ofDateTime d⟩

/-! ### Identifiers -/

namespace Definition.ExtensionSpot

variable {bytes : Octets} {x : ExtensionSpot bytes}

/-- The value of an extension that tells an element begins with that element. -/
theorem begins_of_tells {oid : ObjectId} {critical : Bool} {e : Element}
    (tells : x.extension.Tells oid critical e) :
    ∃ inner : Spot bytes, inner.element = e ∧ x.value.Begins inner := by
  have read := Element.read_of_decode tells.value
  rw [← x.content_value] at read
  exact Spot.exists_begins read

/-- What an extension tells to be the subject's identifier is held by its place. -/
theorem HoldsSubjectId.holds {id : Spot bytes} {oid : ObjectId} {critical : Bool} {octets : Octets}
    (holds : x.HoldsSubjectId id) (tells : x.extension.Tells oid critical (.octetString octets)) :
    id.place.value.Holds bytes octets := by
  obtain ⟨inner, element, begins⟩ := begins_of_tells tells
  obtain rfl := begins.unique holds.2
  have held := inner.value_holds
  rw [element] at held
  exact held

/-- The element that is the authority's identifier, packed into a sequence. -/
theorem members_of_begins {inner : Spot bytes} {octets : Octets}
    (element : inner.element = .sequence [⟨contextPrimitive 0, octets⟩]) :
    ∃ id : Spot bytes, id.element = ⟨contextPrimitive 0, octets⟩ ∧ inner.Packs [id] := by
  have tag : isTag (contextPrimitive 0) = true := by decide
  have sound := inner.sound
  rw [element] at sound
  have read : Element.readAll inner.element.content = some [⟨contextPrimitive 0, octets⟩] := by
    rw [element]
    exact Element.readAll_encodeAll (Element.sound_of_tags sound.fits (by simp [tag]))
  obtain ⟨members, elements, packs⟩ := Spot.exists_packs read
  simp only [List.map_eq_cons_iff, List.map_eq_nil_iff] at elements
  obtain ⟨id, -, rfl, same, rfl⟩ := elements
  exact ⟨id, same, packs⟩

/-- An extension that tells the authority's identifier holds it. -/
theorem exists_holdsAuthorityId {critical : Bool} {octets : Octets}
    (tells : x.extension.Tells Extension.oidAuthorityKeyId critical
      (.sequence [⟨contextPrimitive 0, octets⟩])) :
    ∃ id, x.HoldsAuthorityId id ∧ id.place.value.Holds bytes octets := by
  obtain ⟨inner, element, begins⟩ := begins_of_tells tells
  obtain ⟨id, same, packs⟩ := members_of_begins element
  refine ⟨id, ⟨tells.oid, inner, [id], begins, packs, ?_⟩, ?_⟩
  · rw [List.find?_cons_of_pos (by simp [same])]
  · have held := id.value_holds
    rw [same] at held
    exact held

theorem HoldsAuthorityId.unique {id id' : Spot bytes} (first : x.HoldsAuthorityId id)
    (second : x.HoldsAuthorityId id') : id = id' := by
  obtain ⟨-, inner, members, begins, packs, found⟩ := first
  obtain ⟨-, inner', members', begins', packs', found'⟩ := second
  obtain rfl := begins.unique begins'
  obtain rfl := packs.unique packs'
  rw [found] at found'
  exact Option.some.inj found'

end Definition.ExtensionSpot

/-- If what is held by all that count is the same, then the last stretch that counts holds it. -/
theorem Definition.Latest.holds {α : Type} {bytes octets : Octets} {counts : α → Prop}
    {held : α → Spot bytes → Prop} {start l : Location} {xs : List α}
    (latest : Latest counts held start xs l) (some : ∃ x ∈ xs, counts x)
    (each : ∀ x ∈ xs, ∀ id, held x id → id.place.value.Holds bytes octets) :
    l.Holds bytes octets := by
  rcases latest with ⟨front, x, back, id, rfl, here, -, rfl⟩ | ⟨none, -⟩
  · exact each x (by simp) id here
  · obtain ⟨x, member, counting⟩ := some
    exact absurd counting (none x member)

/-! ### Agreement -/

/-- A definition agrees with the request, the issuer's certificate, the octets of the serial number, the
moment and the number of years for which the certificate in its template was signed. -/
structure CertDefinition.Agrees (d : CertDefinition) (request : Request) (issuer : Certificate)
    (serialOctets : Octets) (now : Moment) (years : Nat) : Prop where
  expireYears : d.expireYears = years
  /-- The last full hour, and the same place of a later year. -/
  dates : ∃ issueDate expireDate : DateTime, issueDate.toSeconds = now.seconds / 3600 * 3600 ∧
    issueDate.YearsLater years expireDate ∧
    issueDate.StandsAt d.template d.issueDate d.issueForm ∧
    expireDate.StandsAt d.template d.expireDate d.expireForm
  /-- The content of the integer with the value of the octets, which is not zero. -/
  serialNumber : ∃ content, d.serialNumber.Holds d.template content ∧
    Integer.toNat? content = some (Octets.toNat serialOctets) ∧ Octets.toNat serialOctets ≠ 0
  key : ∃ x y, p256Point? request.info.publicKey = some (.affine x y) ∧
    d.publicKey.Holds d.template (Octets.ofNat 32 x.val ++ Octets.ofNat 32 y.val) ∧
    d.subjectKeyId.Holds d.template ((sha256.hash (P256.Point.affine x y).encode).take 20)
  authorityKeyId : ∃ id, issuer.IsIssuerKeyId id ∧ d.authorityKeyId.Holds d.template id

namespace CertDefinition

variable {bytes : Octets} {c issuer : Certificate} {request : Request} {serial : Serial}
  {notBefore notAfter : DateTime}

/-- The identifiers in a certificate that is as it should be. -/
theorem Locates.holds_keyIds {d : CertDefinition} {l : Layout bytes c} (locates : d.Locates l)
    (built : c.BuiltFor request issuer serial notBefore notAfter) :
    d.subjectKeyId.Holds bytes ((sha256.hash request.info.publicKey.key.octets).take 20) ∧
      ∃ id, issuer.IsIssuerKeyId id ∧ d.authorityKeyId.Holds bytes id := by
  obtain ⟨constraints, subject, authority, issuerId, listed, endEntity, subjectId, identified,
    authorityId⟩ := built.extensions
  have rows := l.extensions_read
  rw [listed, Option.getD_some] at rows
  simp only [List.map_eq_cons_iff, List.map_eq_nil_iff] at rows
  obtain ⟨first, -, spots, rfl, second, -, rfl, rfl, third, -, rfl, rfl, rfl⟩ := rows
  -- No two of the extensions have the same identifier.
  have constraints_subject : Extension.oidBasicConstraints ≠ Extension.oidSubjectKeyId := by
    decide
  have constraints_authority : Extension.oidBasicConstraints ≠ Extension.oidAuthorityKeyId := by
    decide
  have subject_authority := Extension.oidSubjectKeyId_ne
  obtain ⟨found, holds, held⟩ := ExtensionSpot.exists_holdsAuthorityId authorityId
  have subjects := locates.subjectKeyId
  have authorities := locates.authorityKeyId
  rw [spots] at subjects authorities
  constructor
  · refine subjects.holds ⟨second, by simp, subjectId.oid⟩ ?_
    intro x member id here
    simp only [List.mem_cons, List.not_mem_nil, or_false] at member
    rcases member with rfl | rfl | rfl
    · exact absurd (endEntity.oid.symm.trans here.1) constraints_subject
    · exact here.holds subjectId
    · exact absurd (here.1.symm.trans authorityId.oid) subject_authority
  · refine ⟨issuerId, identified, authorities.holds ⟨third, by simp, found, holds⟩ ?_⟩
    intro x member id here
    simp only [List.mem_cons, List.not_mem_nil, or_false] at member
    rcases member with rfl | rfl | rfl
    · exact absurd (endEntity.oid.symm.trans here.1) constraints_authority
    · exact absurd (subjectId.oid.symm.trans here.1) subject_authority
    · obtain rfl := here.unique holds
      exact held

/-- The coordinates of a request's key are those of its point. -/
theorem exists_coordinates {info : PublicKeyInfo} {point : P256.Point}
    (found : p256Point? info = some point) (full : isUncompressedPoint info.key.octets = true) :
    ∃ x y, point = .affine x y ∧ info.key.octets = (P256.Point.affine x y).encode := by
  rcases P256.Point.eq_encode_or_shortened (decode_of_p256Point? found) with ⟨both, x, y, rfl⟩ | short
  · exact ⟨x, y, rfl, both⟩
  · exact absurd full short.not_isUncompressedPoint

end CertDefinition

namespace Authority

variable {requestText serialText : String} {issuer certificate : Certificate} {key : P256.PrivateKey}
  {years : Nat} {now : Moment} {kind : CertKind} {d : CertDefinition}

/-- The definition of an issued certificate agrees with what it was issued for. -/
theorem agrees_of_issue
    (issued : issue requestText issuer key serialText years now = .ok certificate)
    (described : CertDefinition.ofCertificate certificate.encode kind = .ok d) :
    ∃ request octets, parseRequest requestText = .ok request ∧
      Hex.decode (Text.trimChars serialText.toList) = some octets ∧ d.template = certificate.encode ∧
      d.Agrees request issuer octets now years := by
  have decoded := decode_of_issue issued
  obtain ⟨request, notBefore, notAfter, serial, parsed, verified, -, dated, later, numbered, -, back⟩ :=
    readsBack_of_issue issued
  have built := back.built
  obtain ⟨-, point, found, -⟩ := verifyRequest_eq_ok_iff.1 verified
  obtain ⟨octets, spelled, positive, content, -⟩ := parseSerial_eq_ok_iff.1 numbered
  obtain ⟨l⟩ := Layout.exists_of_decode decoded
  obtain ⟨full, places, ids, rfl⟩ := (l.ofCertificate_eq_ok_iff decoded).1 described
  have locates : (l.definition kind places).Locates l := CertDefinition.locates_definition l full ids
  obtain ⟨subjectKeyId, authorityKeyId⟩ := locates.holds_keyIds built
  rw [built.publicKey] at full
  obtain ⟨x, y, rfl, coordinates⟩ := CertDefinition.exists_coordinates found full
  refine ⟨request, octets, parsed, spelled, rfl, ?_⟩
  obtain ⟨-, -, hour⟩ := issuanceTime_eq_ok_iff.1 dated
  have years_later := addYears_eq_ok_iff.1 later
  obtain ⟨from_, upTo⟩ := built.dates
  have onTheHour := DateTime.on_the_hour hour
  constructor
  case expireYears =>
    show certificate.body.validity.notAfter.date.year - certificate.body.validity.notBefore.date.year = _
    rw [from_, upTo, years_later.year, Nat.add_sub_cancel_left]
  case dates =>
    have atEnd : notAfter.minute = 0 ∧ notAfter.second = 0 := by
      rw [years_later.minute, years_later.second]
      exact onTheHour
    have first := congrArg Validity.notBefore built.validity
    have last := congrArg Validity.notAfter built.validity
    exact ⟨notBefore, notAfter, hour, years_later,
      DateTime.standsAt_of_spot l.notBefore_read first onTheHour,
      DateTime.standsAt_of_spot l.notAfter_read last atEnd⟩
  case serialNumber =>
    refine ⟨_, locates.serialNumber_holds, ?_, positive⟩
    rw [built.serial, content, Integer.toNat?_ofNat]
  case key =>
    have held := locates.publicKey_holds
    rw [built.publicKey, coordinates] at held
    rw [coordinates] at subjectKeyId
    have both : ((P256.Point.affine x y).encode.drop 1).take 64 =
        Octets.ofNat 32 x.val ++ Octets.ofNat 32 y.val := by
      apply List.take_of_length_le
      simp [P256.Point.encode, Octets.length_ofNat]
    rw [both] at held
    exact ⟨x, y, found, held, subjectKeyId⟩
  case authorityKeyId => exact authorityKeyId

/-- For every input: what is signed and described is the text of a certificate that was issued, and the
definition, with that certificate as its template, agrees with what it was issued for. -/
theorem signed_and_described_iff {text : Octets} :
    signRequest requestText issuer key serialText years now = .ok text ∧
        CertDefinition.ofText text kind = .ok d ↔
      ∃ certificate request octets,
        issue requestText issuer key serialText years now = .ok certificate ∧
        text = certificateText certificate ∧ parseRequest requestText = .ok request ∧
        Hex.decode (Text.trimChars serialText.toList) = some octets ∧
        CertDefinition.ofCertificate certificate.encode kind = .ok d ∧
        d.template = certificate.encode ∧ d.Agrees request issuer octets now years := by
  rw [signRequest_eq_ok_iff]
  constructor
  · rintro ⟨⟨certificate, issued, rfl⟩, described⟩
    rw [ofText_certificateText] at described
    obtain ⟨request, octets, parsed, spelled, template, agrees⟩ := agrees_of_issue issued described
    exact ⟨certificate, request, octets, issued, rfl, parsed, spelled, described, template, agrees⟩
  · rintro ⟨certificate, request, octets, issued, rfl, -, -, described, -, -⟩
    exact ⟨⟨certificate, issued, rfl⟩, ofText_certificateText.trans described⟩

end Authority

end SecureElement
