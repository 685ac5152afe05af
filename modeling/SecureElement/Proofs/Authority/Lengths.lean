import SecureElement.Proofs.Authority.ReadBack
import SecureElement.Proofs.X509.Times

/-!
How long an issued certificate is.

All that is long in an issued certificate is taken from the request or from the issuer's certificate: the two names, the
public key and the identifier of the issuer's key. The rest of it takes 512 octets at most
(`length_signBody_le`).
-/

namespace SecureElement

open Der X509 Crypto

namespace Authority

open Der.Element

/-! ### What is always short -/

theorem length_ecdsaWithSha256 : ecdsaWithSha256.element.encode.length = 12 := by decide +kernel

theorem length_version :
    (ofElements (contextConstructed 0) [.ofNat Version.v3.number]).encode.length = 5 := by decide

theorem length_notAnAuthority : Extension.notAnAuthority.element.encode.length = 14 := by decide

theorem length_keyId_le (key : PublicKeyInfo) : (keyId key).length ≤ 20 := by
  rw [keyId, List.length_take]
  exact Nat.min_le_left _ _

theorem length_validity_le (v : Validity) : v.element.encode.length ≤ 48 := by
  have date : ∀ t : Time, t.element.encode.length ≤ 21 := fun t =>
    length_encode_le (e := t.element) (by simpa [Time.element] using t.length_chars_le) (by decide)
  have first := date v.notBefore
  have last := date v.notAfter
  refine length_encode_ofElements_le (n := 42) ?_ (by decide)
  rw [length_encodeAll_cons, length_encodeAll_cons, length_encodeAll_nil]
  omega

theorem length_subjectKeyId_le {id : Octets} (short : id.length ≤ 20) :
    (Extension.subjectKeyId id).element.encode.length ≤ 43 := by
  have oid : Extension.oidSubjectKeyId.element.encode.length = 5 := by decide
  have value : (octetString id).encode.length ≤ 26 := length_encode_le short (by decide)
  have wrapped : (octetString (octetString id).encode).encode.length ≤ 32 := length_encode_le value (by decide)
  refine length_encode_ofElements_le (n := 37) ?_ (by decide)
  simp only [Extension.subjectKeyId, Bool.false_eq_true, if_false, List.cons_append, List.nil_append,
    length_encodeAll_cons, length_encodeAll_nil]
  omega

theorem length_signature_le {σ : Ecdsa.Signature} (r : σ.r < P256.order) (s : σ.s < P256.order) :
    (BitString.ofOctets σ.encode).element.encode.length ≤ 91 :=
  length_encode_le (n := 85) (Nat.succ_le_succ (Ecdsa.Signature.length_encode_le r s)) (by decide)

/-! ### What is taken from the issuer -/

theorem length_authorityKeyId_le {id : Octets} {n : Nat} (short : id.length ≤ n) (small : n + 23 ≤ maxLength) :
    (Extension.authorityKeyId id).element.encode.length ≤ n + 29 := by
  have oid : Extension.oidAuthorityKeyId.element.encode.length = 5 := by decide
  have field : (Element.mk (contextPrimitive 0) id).encode.length ≤ n + 6 :=
    length_encode_le short (by omega)
  have value : (Element.sequence [⟨contextPrimitive 0, id⟩]).encode.length ≤ n + 12 := by
    refine length_encode_ofElements_le (n := n + 6) ?_ (by omega)
    rw [length_encodeAll_cons, length_encodeAll_nil]
    omega
  have wrapped : (octetString (Element.sequence [⟨contextPrimitive 0, id⟩]).encode).encode.length ≤ n + 18 :=
    length_encode_le value (by omega)
  refine length_encode_ofElements_le (n := n + 23) ?_ small
  simp only [Extension.authorityKeyId, Bool.false_eq_true, if_false, List.cons_append, List.nil_append,
    length_encodeAll_cons, length_encodeAll_nil]
  omega

/-- An extension that tells an identifier is at least as long. -/
theorem length_le_of_subjectKeyId? {x : Extension} {id : Octets} (told : x.subjectKeyId? = some id) :
    id.length ≤ x.element.encode.length := by
  simp only [Extension.subjectKeyId?, Option.bind_eq_bind, Option.bind_eq_some_iff, Element.octetString?,
    content?_eq_some_iff] at told
  obtain ⟨e, decoded, rfl⟩ := told
  have value := length_le_encode (⟨tagOctetString, id⟩ : Element)
  rw [encode_of_decode decoded] at value
  have wrapped := length_le_encode (octetString x.value)
  have member : octetString x.value ∈
      x.oid.element :: (if x.critical then [.ofTrue] else []) ++ [.octetString x.value] := by simp
  calc id.length ≤ x.value.length := value
    _ ≤ (octetString x.value).encode.length := wrapped
    _ ≤ _ := length_encode_le_encodeAll member
    _ ≤ x.element.encode.length := length_encodeAll_le tagSequence _

/-- The name of an issuer and the identifier of its key are no longer than its certificate, unless the
identifier is the digest of the key. -/
theorem length_issuer_le {issuer : Certificate} {id : Octets} (identified : issuer.IsIssuerKeyId id) :
    issuer.body.subject.element.encode.length + id.length ≤ issuer.encode.length + 20 := by
  have body := length_encodeAll_le tagSequence
    [issuer.body.element, issuer.algorithm.element, issuer.signature.element]
  have rows := length_le_encode issuer.body.element
  have fields : issuer.body.subject.element.encode.length +
      (encodeAll (issuer.body.extensions.map ToBeSigned.extensionsField).toList).length ≤
        issuer.body.element.content.length := by
    simp only [ToBeSigned.element, Element.sequence, ofElements, length_encodeAll_append,
      length_encodeAll_cons]
    omega
  have whole : issuer.body.subject.element.encode.length +
      (encodeAll (issuer.body.extensions.map ToBeSigned.extensionsField).toList).length ≤
        issuer.encode.length := by
    rw [length_encodeAll_cons] at body
    exact Nat.le_trans fields (Nat.le_trans rows (Nat.le_trans (Nat.le_add_right _ _) body))
  cases identified with
  | digest none =>
      have short := length_keyId_le issuer.body.publicKey
      exact Nat.add_le_add (Nat.le_trans (Nat.le_add_right _ _) whole) short
  | @told x id first told =>
      have member := List.mem_of_find?_eq_some first
      cases listed : issuer.body.extensions with
      | none =>
          rw [listed] at member
          cases member
      | some extensions =>
          rw [listed, Option.getD_some] at member
          rw [listed, Option.map_some, Option.toList_some, length_encodeAll_cons] at whole
          have value := length_le_of_subjectKeyId? told
          have row := length_encode_le_encodeAll (List.mem_map_of_mem (f := Extension.element) member)
          have list := length_encodeAll_le tagSequence (extensions.map Extension.element)
          have field := length_encodeAll_le (contextConstructed 3)
            [.sequence (extensions.map Extension.element)]
          rw [length_encodeAll_cons] at field
          have all : (encodeAll (extensions.map Extension.element)).length ≤
              (ToBeSigned.extensionsField extensions).encode.length :=
            Nat.le_trans list (Nat.le_trans (Nat.le_add_right _ _) field)
          omega

/-! ### The whole certificate -/

section

variable {request : Request} {issuer : Certificate} {issuerId : Octets} {serial : Serial}
  {period : Validity} {key : P256.PrivateKey}

/-- The name and the public key of a request are no longer than what is signed of it. -/
theorem length_info_le (info : RequestInfo) :
    info.subject.element.encode.length + info.publicKey.element.encode.length ≤ info.encode.length := by
  have rows := length_encodeAll_le tagSequence [.ofNat 0, info.subject.element, info.publicKey.element,
    .ofElements (contextConstructed 0) (info.attributes.map RequestAttribute.element)]
  simp only [length_encodeAll_cons] at rows
  refine Nat.le_trans ?_ rows
  omega

/-- A certificate for a request takes 512 octets at most besides what is taken from the request and from the
issuer's certificate. -/
theorem length_signBody_le (identified : issuer.IsIssuerKeyId issuerId)
    (few : serial.content.length ≤ Serial.maxIssued)
    (small : request.info.encode.length + issuer.encode.length + 512 ≤ maxLength) :
    (signBody key (certificateFor request issuer issuerId serial period)).encode.length ≤
      request.info.encode.length + issuer.encode.length + 512 := by
  have taken := length_issuer_le identified
  have asked := length_info_le request.info
  generalize request.info.encode.length = r at asked small ⊢
  generalize issuer.encode.length = i at taken small ⊢
  have number : serial.element.encode.length ≤ 26 := length_encode_le few (by decide)
  have dates := length_validity_le period
  have subjectId := length_subjectKeyId_le (length_keyId_le request.info.publicKey)
  have authorityId := length_authorityKeyId_le (Nat.le_refl issuerId.length) (by omega)
  have list : (Element.sequence ((issuedExtensions (keyId request.info.publicKey) issuerId).map
      Extension.element)).encode.length ≤ issuerId.length + 92 := by
    refine length_encode_ofElements_le (n := issuerId.length + 86) ?_ (by omega)
    simp only [issuedExtensions, List.map_cons, List.map_nil, length_encodeAll_cons, length_encodeAll_nil,
      length_notAnAuthority]
    omega
  have extensions : (ToBeSigned.extensionsField
      (issuedExtensions (keyId request.info.publicKey) issuerId)).encode.length ≤ issuerId.length + 98 := by
    refine length_encode_ofElements_le (n := issuerId.length + 92) ?_ (by omega)
    rw [length_encodeAll_cons, length_encodeAll_nil]
    omega
  have body : (certificateFor request issuer issuerId serial period).element.encode.length ≤ r + i + 215 := by
    rw [modern_certificateFor.element_eq]
    refine length_encode_ofElements_le (n := r + i + 209) ?_ (by omega)
    simp only [ToBeSigned.rows, certificateFor, length_encodeAll_cons, length_encodeAll_nil, length_version,
      length_ecdsaWithSha256]
    omega
  obtain ⟨r_lt, s_lt⟩ :=
    Ecdsa.sign_lt_order key (certificateFor request issuer issuerId serial period).encode
  have signature := length_signature_le r_lt s_lt
  have whole : (encodeAll [(certificateFor request issuer issuerId serial period).element,
      ecdsaWithSha256.element, (BitString.ofOctets (Ecdsa.sign key
        (certificateFor request issuer issuerId serial period).encode).encode).element]).length ≤
      r + i + 506 := by
    simp only [length_encodeAll_cons, length_encodeAll_nil, length_ecdsaWithSha256]
    omega
  exact length_encode_ofElements_le whole (by omega)

end

end Authority

end SecureElement
