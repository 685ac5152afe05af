import SecureElement.Proofs.X509.Names
import SecureElement.Proofs.X509.Times
import SecureElement.X509.Certificate

/-!
Certificates are read back as they were written.

`Certificate.decode_encode` is for certificates of the third version with extensions and without the two
identifiers that go before them. Each field has to be one that is read back; of the lengths only that of
the whole matters.
-/

namespace SecureElement.X509

open Der

theorem Extension.ofElement?_element {x : Extension}
    (oid : ObjectId.ofElement? x.oid.element = some x.oid) (fits : x.element.Fits) :
    ofElement? x.element = some x := by
  obtain ⟨oid', critical, value⟩ := x
  cases critical with
  | false =>
      have row : (element ⟨oid', false, value⟩).sequence? =
          some [oid'.element, .octetString value] :=
        Element.sequence?_sequence (Element.sound_of_tags fits rfl)
      have octets : (Element.octetString value).octetString? = some value := rfl
      simp only [ofElement?, row, octets, Option.bind_eq_bind, Option.bind_some]
      rw [oid]
      rfl
  | true =>
      have row : (element ⟨oid', true, value⟩).sequence? =
          some [oid'.element, .ofTrue, .octetString value] :=
        Element.sequence?_sequence (Element.sound_of_tags fits rfl)
      have octets : (Element.octetString value).octetString? = some value := rfl
      have yes : Element.ofTrue.bool? = some true := rfl
      simp only [ofElement?, row, octets, yes, Option.bind_eq_bind, Option.bind_some]
      rw [oid]
      rfl

theorem Serial.ofElement?_element {s : Serial} (integer : isInteger s.content = true)
    (short : s.content.length ≤ maxRead) : ofElement? s.element = some s := by
  have content : s.element.content? tagInteger = some s.content := rfl
  simp only [ofElement?, content, integer, short, and_self, guard_true, Option.bind_eq_bind,
    Option.bind_some, Option.pure_def]

theorem Version.ofField?_fields :
    Version.ofField? (some (.ofElements (contextConstructed 0) [.ofNat Version.v3.number])) =
      some .v3 := by
  have two : (Element.ofNat Version.v3.number).nat? = some 2 := by decide
  have short : (Integer.ofNat Version.v3.number).length ≤ 1 + 1 :=
    Integer.length_ofNat_le (by decide)
  have sound : (Element.ofNat Version.v3.number).Sound := ⟨rfl, Nat.le_trans short (by decide)⟩
  simp only [ofField?, Element.wrapped?_ofElements sound, two, Option.bind_eq_bind, Option.bind_some,
    ofNumber?]

namespace ToBeSigned

/-- Every field is read back. -/
structure Readable (b : ToBeSigned) : Prop where
  serial : Serial.ofElement? b.serial.element = some b.serial
  algorithm : AlgorithmId.ofElement? b.algorithm.element = some b.algorithm
  issuer : Name.ofElement? b.issuer.element = some b.issuer
  validity : Validity.ofElement? b.validity.element = some b.validity
  subject : Name.ofElement? b.subject.element = some b.subject
  publicKey : PublicKeyInfo.ofElement? b.publicKey.element = some b.publicKey

/-- A signed part of the third version with extensions, and without the identifiers before them. -/
structure Modern (b : ToBeSigned) (extensions : List Extension) : Prop where
  version : b.version = .v3
  issuerId : b.issuerId = none
  subjectId : b.subjectId = none
  extensions : b.extensions = some extensions

/-- The elements of a signed part of the third version. -/
def rows (b : ToBeSigned) (extensions : List Extension) : List Element :=
  [.ofElements (contextConstructed 0) [.ofNat Version.v3.number], b.serial.element,
    b.algorithm.element, b.issuer.element, b.validity.element, b.subject.element,
    b.publicKey.element, extensionsField extensions]

theorem Modern.element_eq {b : ToBeSigned} {extensions : List Extension}
    (modern : b.Modern extensions) : b.element = .sequence (b.rows extensions) := by
  unfold element
  rw [modern.version, modern.issuerId, modern.subjectId, modern.extensions]
  rfl

theorem extensionsOfField?_extensionsField {extensions : List Extension}
    (fits : (extensionsField extensions).Fits)
    (oids : ∀ x ∈ extensions, ObjectId.ofElement? x.oid.element = some x.oid) :
    extensionsOfField? (some (extensionsField extensions)) = some (some extensions) := by
  have inner : (Element.sequence (extensions.map Extension.element)).Fits :=
    fits.of_mem (List.mem_singleton_self _)
  have wrapped : (extensionsField extensions).wrapped? (contextConstructed 3) =
      some (.sequence (extensions.map Extension.element)) :=
    Element.wrapped?_ofElements ⟨rfl, inner⟩
  have tags : ((extensions.map Extension.element).all fun e => isTag e.tag) = true := by
    refine List.all_eq_true.2 fun e member => ?_
    obtain ⟨x, -, rfl⟩ := List.mem_map.1 member
    rfl
  have row := Element.sequence?_sequence (Element.sound_of_tags inner tags)
  have back : (extensions.map Extension.element).mapM Extension.ofElement? = some extensions :=
    mapM_map_of_forall fun x member =>
      Extension.ofElement?_element (oids x member) (inner.of_mem (List.mem_map_of_mem member))
  simp only [extensionsOfField?, wrapped, row, back, Option.bind_eq_bind, Option.bind_some]

theorem sound_rows {b : ToBeSigned} {extensions : List Extension}
    (fits : (Element.sequence (b.rows extensions)).Fits) :
    ∀ e ∈ b.rows extensions, e.Sound := by
  have first : isTag (contextConstructed 0) = true := by decide
  have last : isTag (contextConstructed 3) = true := by decide
  have tags : ((b.rows extensions).all fun e => isTag e.tag) =
      (isTag (contextConstructed 0) && (true && (true && (true && (true && (true && (true &&
        (isTag (contextConstructed 3) && true)))))))) := rfl
  refine Element.sound_of_tags fits ?_
  rw [tags, first, last]
  rfl

theorem ofElement?_element {b : ToBeSigned} {extensions : List Extension} (readable : b.Readable)
    (modern : b.Modern extensions)
    (oids : ∀ x ∈ extensions, ObjectId.ofElement? x.oid.element = some x.oid)
    (fits : b.element.Fits) : ofElement? b.element = some b := by
  rw [modern.element_eq] at fits ⊢
  have row := Element.sequence?_sequence (sound_rows fits)
  have first : ∀ rest, takeContext 0 (.ofElements (contextConstructed 0)
      [.ofNat Version.v3.number] :: rest) =
        (some (.ofElements (contextConstructed 0) [.ofNat Version.v3.number]), rest) :=
    fun rest => takeContext_of_eq (by decide)
  have third : contextNumber? (contextConstructed 3) = some 3 := by decide
  have none₁ : takeContext 1 [extensionsField extensions] =
      (none, [extensionsField extensions]) :=
    takeContext_of_gt third (by decide)
  have none₂ : takeContext 2 [extensionsField extensions] =
      (none, [extensionsField extensions]) :=
    takeContext_of_gt third (by decide)
  have last : takeContext 3 [extensionsField extensions] =
      (some (extensionsField extensions), []) := takeContext_of_eq third
  have list := extensionsOfField?_extensionsField
    (fits.of_mem (e := extensionsField extensions) (by simp [rows])) oids
  obtain ⟨version, serial, algorithm, issuer, validity, subject, publicKey, issuerId, subjectId,
    extensions'⟩ := b
  obtain ⟨rfl, rfl, rfl, rfl⟩ := modern
  obtain ⟨serial_read, algorithm_read, issuer_read, validity_read, subject_read, key_read⟩ := readable
  unfold ofElement?
  rw [row]
  simp only [rows, first, none₁, none₂, last, Option.bind_eq_bind, Option.bind_some, guard_true,
    Option.pure_def, Version.ofField?_fields, serial_read, algorithm_read, issuer_read, validity_read,
    subject_read, key_read, bitsOfField?, list]

end ToBeSigned

/-- A certificate is read back, if it is not too long. -/
theorem Certificate.decode_encode {c : Certificate} {extensions : List Extension}
    (readable : c.body.Readable) (modern : c.body.Modern extensions)
    (oids : ∀ x ∈ extensions, ObjectId.ofElement? x.oid.element = some x.oid)
    (algorithm : AlgorithmId.ofElement? c.algorithm.element = some c.algorithm)
    (signature : BitString.ofElement? c.signature.element = some c.signature)
    (fits : c.element.Fits) : decode c.encode = some c := by
  have tags : ([c.body.element, c.algorithm.element, c.signature.element].all
      fun e => isTag e.tag) = true := rfl
  have row : c.element.sequence? =
      some [c.body.element, c.algorithm.element, c.signature.element] :=
    Element.sequence?_sequence (Element.sound_of_tags fits tags)
  have body : ToBeSigned.ofElement? c.body.element = some c.body :=
    ToBeSigned.ofElement?_element readable modern oids (fits.of_mem (by simp))
  have whole : Element.decode c.encode = some c.element := Element.decode_encode ⟨rfl, fits⟩
  simp only [decode, whole, ofElement?, row, body, algorithm, signature, Option.bind_eq_bind,
    Option.bind_some]

end SecureElement.X509
