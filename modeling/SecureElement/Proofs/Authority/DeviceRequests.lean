import SecureElement.Bench.Authority
import SecureElement.Proofs.Authority.Demands
import SecureElement.Proofs.Chip.RequestBlocks
import SecureElement.Proofs.Crypto.Signing
import SecureElement.Proofs.X509.Requests

/-!
The requests of devices, from the key to the certificate.

A request that a device prints for its key and a name (`Bench.requestText?`) is a block between dashes, so it is
found in a report that has no other dashes (`requestBlock_of_requestText`). What is found is read as the request
that was written (`parseRequest_of_requestText`). So it is signed exactly if its own signature is accepted and
what has nothing to do with the request is as demanded, and the certificate is for the name and the key
(`device_request_signed_iff`).
-/

namespace SecureElement

open Der X509 Crypto Authority Bench

section

variable {key : P256.PrivateKey} {name : Name}

/-! ### The request and its key -/

theorem ofElement?_publicKeyInfo (fits : (publicKeyInfo key).element.Fits) :
    PublicKeyInfo.ofElement? (publicKeyInfo key).element = some (publicKeyInfo key) := by
  have oid : ObjectId.ofElement? oidEcPublicKey.element = some oidEcPublicKey := by decide +kernel
  have curve : isTag oidP256.element.tag = true := by decide
  have algorithm : AlgorithmId.ofElement? (publicKeyInfo key).algorithm.element =
      some (publicKeyInfo key).algorithm := by
    refine AlgorithmId.ofElement?_element ?_ oid (fits.of_mem (by simp))
    rintro e ⟨⟩
    exact curve
  exact PublicKeyInfo.ofElement?_element algorithm (BitString.ofElement?_ofOctets _) fits

/-- The key in a request is read as the public half of the private key. -/
theorem p256Point?_publicKeyInfo (key : P256.PrivateKey) :
    p256Point? (publicKeyInfo key) = some key.point := by
  have curve : ObjectId.ofElement? oidP256.element = some oidP256 := by decide +kernel
  rw [p256Point?, if_pos ⟨rfl, curve, rfl⟩]
  exact key.decode_publicOctets

/-- A request that is not too long is read back. -/
theorem decode_requestFor (short : (requestFor key name).encode.length ≤ maxLength) :
    Request.decode (requestFor key name).encode = some (requestFor key name) := by
  have oid : ObjectId.ofElement? oidEcdsaWithSha256.element = some oidEcdsaWithSha256 := by
    decide +kernel
  refine Request.decode_encode short (fun fits => ?_) (AlgorithmId.ofElement?_element nofun oid)
    (BitString.ofElement?_ofOctets _)
  refine RequestInfo.ofElement?_element fits (ofElement?_publicKeyInfo (fits.of_mem ?_)) nofun trivial
  exact List.mem_of_getElem? (i := 2) rfl

/-! ### How long a request is -/

theorem length_publicOctets_le (key : P256.PrivateKey) : key.publicOctets.length ≤ 65 := by
  unfold P256.PrivateKey.publicOctets P256.Point.encode
  split
  · decide
  · simp [Octets.length_ofNat]

theorem length_publicKeyInfo_le (key : P256.PrivateKey) :
    (publicKeyInfo key).element.encode.length ≤ 99 := by
  have algorithm : (publicKeyInfo key).algorithm.element.encode.length = 21 := by
    have fixed : (AlgorithmId.mk oidEcPublicKey (some oidP256.element)).element.encode.length = 21 := by
      decide +kernel
    exact fixed
  have bits : (publicKeyInfo key).key.element.encode.length ≤ 72 :=
    Element.length_encode_le (n := 66) (Nat.succ_le_succ (length_publicOctets_le key)) (by decide)
  refine Element.length_encode_ofElements_le (n := 93) ?_ (by decide)
  rw [Element.length_encodeAll_cons, Element.length_encodeAll_cons, Element.length_encodeAll_nil, algorithm]
  omega

/-- A request takes 256 octets at most besides the name. -/
theorem length_requestFor_le (small : name.element.encode.length + 256 ≤ maxLength) :
    (requestFor key name).encode.length ≤ name.element.encode.length + 256 := by
  have version : (Element.ofNat 0).encode.length = 3 := by decide
  have attributes : (Element.ofElements (contextConstructed 0) []).encode.length = 2 := by decide
  have publicKey := length_publicKeyInfo_le key
  obtain ⟨r_lt, s_lt⟩ := Ecdsa.sign_lt_order key (requestFor key name).info.encode
  have signature : (requestFor key name).signature.element.encode.length ≤ 91 :=
    length_signature_le r_lt s_lt
  have info : (requestFor key name).info.element.encode.length ≤ name.element.encode.length + 110 := by
    refine Element.length_encode_ofElements_le (n := name.element.encode.length + 104) ?_ (by omega)
    simp only [requestFor, List.map_nil, Element.length_encodeAll_cons, Element.length_encodeAll_nil,
      version, attributes]
    omega
  have algorithm : (requestFor key name).algorithm.element.encode.length = 12 := length_ecdsaWithSha256
  refine Nat.le_trans (Element.length_encode_ofElements_le (n := name.element.encode.length + 213) ?_
    (by omega)) (by omega)
  simp only [Element.length_encodeAll_cons, Element.length_encodeAll_nil, algorithm]
  omega

/-! ### The text of a request in a report -/

theorem requestText?_eq_some_iff {subject : String} (named : Name.ofText? subject = some name) {text : Octets} :
    requestText? key subject = some text ↔
      (requestFor key name).encode.length ≤ maxLength ∧
        Pem.encode ⟨requestLabel, (requestFor key name).encode⟩ = text := by
  simp only [requestText?, named, Option.bind_eq_bind, Option.bind_some, Option.ite_none_right_eq_some,
    Option.some.injEq]

/-- The text of a request is a block and a line feed. -/
theorem exists_isBlock_requestText (content : Octets) :
    ∃ block, Report.IsBlock block ∧
      (Octets.toAscii (Pem.encode ⟨requestLabel, content⟩)).toList = block ++ ['\n'] := by
  let spell (octets : Octets) : List Char := octets.map fun b => Char.ofNat b.toNat
  have first : spell (Pem.beginMark ++ requestLabel ++ Pem.dashes) =
      Report.dashes 5 ++ (Report.beginWord ++ Report.dashes 5) := by decide +kernel
  have last : spell (Pem.endMark ++ requestLabel ++ Pem.dashes) =
      Report.dashes 5 ++ (Report.endWord ++ Report.dashes 5) := by decide +kernel
  have feed : spell [0x0A] = ['\n'] := by decide
  have append : ∀ xs ys, spell (xs ++ ys) = spell xs ++ spell ys := fun _ _ => List.map_append
  let body := spell ([0x0A] ++ ((Base64.encode content).chunks Pem.lineWidth).flatMap (· ++ [0x0A]))
  refine ⟨Report.dashes 5 ++ (Report.beginWord ++ (Report.dashes 5 ++ (body ++
    (Report.dashes 5 ++ (Report.endWord ++ Report.dashes 5))))), ⟨4, 4, body, 4, 4, rfl⟩, ?_⟩
  calc (Octets.toAscii (Pem.encode ⟨requestLabel, content⟩)).toList
      = spell (Pem.encode ⟨requestLabel, content⟩) := String.toList_ofList
    _ = spell (Pem.beginMark ++ requestLabel ++ Pem.dashes) ++ (body ++
          (spell (Pem.endMark ++ requestLabel ++ Pem.dashes) ++ ['\n'])) := by
        rw [Pem.encode, ← feed]
        simp only [body, append, List.append_assoc]
    _ = _ := by
        rw [first, last]
        simp only [List.append_assoc]

/-- The text of a request is found among other text without dashes, up to its last line feed. What is found is
read as the document that was written. -/
theorem requestBlock_of_requestText {content : Octets} (filled : content ≠ []) {before after : String}
    (front : '-' ∉ before.toList) (back : '-' ∉ after.toList) :
    ∃ block, Report.requestBlock (before ++ Octets.toAscii (Pem.encode ⟨requestLabel, content⟩) ++ after) =
        some block ∧
      block ++ "\n" = Octets.toAscii (Pem.encode ⟨requestLabel, content⟩) ∧
      decodePem (Utf8.encode (Text.trim block)) requestLabel = .ok content := by
  obtain ⟨block, isBlock, text⟩ := exists_isBlock_requestText content
  refine ⟨String.ofList block, ?_, ?_, ?_⟩
  · refine Report.requestBlock_eq_some_iff.2 ⟨before.toList, '\n' :: after.toList, ?_⟩
    have feed : '-' ∉ '\n' :: after.toList := by simpa using back
    have parts := isBlock.blockParts front feed
    rw [String.toList_append, String.toList_append, text, String.toList_ofList]
    simpa only [List.append_assoc, List.singleton_append] using parts
  · rw [← String.toList_inj, String.toList_append, String.toList_ofList, text]
    rfl
  · have trimmed : Text.trim (String.ofList block) =
        Text.trim (Octets.toAscii (Pem.encode ⟨requestLabel, content⟩)) := by
      rw [Text.trim, Text.trim, text, String.toList_ofList]
      have around : Text.trimChars ([] ++ block ++ ['\n']) = Text.trimChars block :=
        Text.trimChars_append (List.forall_mem_nil _) (List.forall_mem_singleton.2 rfl)
      rw [← around, List.nil_append]
    rw [trimmed]
    exact decodePem_requestText filled

end

/-! ### Signing what a device prints -/

namespace Authority

/-- The demands that have nothing to do with the request but for its length. -/
def otherDemands : List Demand :=
  [.issuerKey, .clock, .years, .issuerId, .serialDigits, .serialPositive, .serialLength, .length]

/-- A request that a text holds is signed exactly if its own signature is accepted under the key in it, and the
other demands are met. -/
theorem Task.Holds.signed_iff {t : Task} {request : Request} (holds : t.Holds request)
    (known : request.algorithm.oid = oidEcdsaWithSha256) :
    (∃ text, signRequest t.requestText t.issuer t.key t.serialText t.years t.now = .ok text) ↔
      (∃ point, p256Point? request.info.publicKey = some point ∧
        Ecdsa.Accepts point request.info.encode request.signature.octets) ∧
      ∀ d ∈ otherDemands, t.Meets d := by
  have split : conditions ++ [.length] =
      [.document, .label, .request, .algorithm, .publicKey, .signature, .signed] ++ otherDemands := rfl
  have signed : t.Meets .signed ↔ ∃ point, p256Point? request.info.publicKey = some point ∧
      Ecdsa.Accepts point request.info.encode request.signature.octets := by
    rw [Task.Meets, holds.exists_iff]
  rw [(checks_signRequest t).passed, split, List.forall_mem_append, ← signed]
  refine and_congr_left fun _ => ⟨fun met => met _ (by simp), fun met => ?_⟩
  obtain ⟨point, carried, σ, decoded, -⟩ := signed.1 met
  obtain ⟨content, document, -⟩ := id holds
  simp only [List.forall_mem_cons, List.not_mem_nil, false_implies, implies_true, and_true]
  refine ⟨⟨_, document⟩, ⟨_, document⟩, ⟨request, holds⟩, ⟨request, holds, known⟩, ?_, ?_, met⟩
  · exact ⟨request, holds, point, carried⟩
  · exact ⟨request, holds, σ, decoded⟩

/-- For every key and every text that spells a name: there is the text of a request, unless the request is too
long, which it is not if the name leaves 256 octets. Among other text without dashes it is found, up to its last
line feed. What is found is signed exactly if the key's own signature of the request is accepted, and what has
nothing to do with the request is as demanded. The signature is accepted if none of its two numbers is zero. What is
issued is read as a certificate for that very name and for the public half of the key. -/
theorem device_request_signed_iff (key : P256.PrivateKey) {subject : String} {name : Name}
    (named : Name.ofText? subject = some name) :
    ((∃ text, requestText? key subject = some text) ↔ (requestFor key name).encode.length ≤ maxLength) ∧
    (name.element.encode.length + 256 ≤ maxLength → (requestFor key name).encode.length ≤ maxLength) ∧
    (Ecdsa.Accepts key.point (requestFor key name).info.encode (requestFor key name).signature.octets ↔
      (Ecdsa.sign key (requestFor key name).info.encode).r ≠ 0 ∧
        (Ecdsa.sign key (requestFor key name).info.encode).s ≠ 0) ∧
    ∀ text, requestText? key subject = some text → ∀ before after : String,
      '-' ∉ before.toList → '-' ∉ after.toList →
      ∃ block, Report.requestBlock (before ++ Octets.toAscii text ++ after) = some block ∧
        block ++ "\n" = Octets.toAscii text ∧
        ∀ issuer issuerKey serialText years now,
          ((∃ pem, signRequest block issuer issuerKey serialText years now = .ok pem) ↔
            Ecdsa.Accepts key.point (requestFor key name).info.encode
              (requestFor key name).signature.octets ∧
            ∀ d ∈ otherDemands, Task.Meets ⟨block, issuer, issuerKey, serialText, years, now⟩ d) ∧
          ∀ pem, signRequest block issuer issuerKey serialText years now = .ok pem →
            ∃ certificate, parseCertificate pem = .ok certificate ∧ certificate.body.subject = name ∧
              certificate.body.publicKey = publicKeyInfo key := by
  refine ⟨?_, fun small => Nat.le_trans (length_requestFor_le small) small,
    Ecdsa.accepts_sign_iff key (requestFor key name).info.encode, ?_⟩
  · constructor
    · rintro ⟨text, printed⟩
      exact ((requestText?_eq_some_iff named).1 printed).1
    · intro short
      exact ⟨_, (requestText?_eq_some_iff named).2 ⟨short, rfl⟩⟩
  · intro text printed before after front back
    obtain ⟨short, rfl⟩ := (requestText?_eq_some_iff named).1 printed
    have filled : (requestFor key name).encode ≠ [] := List.cons_ne_nil _ _
    obtain ⟨block, found, whole, held⟩ := requestBlock_of_requestText filled front back
    have parsed : parseRequest block = .ok (requestFor key name) :=
      parseRequest_eq_ok_iff.2 ⟨_, held, decode_requestFor short⟩
    refine ⟨block, found, whole, fun issuer issuerKey serialText years now => ⟨?_, fun pem signed => ?_⟩⟩
    · have holds : Task.Holds ⟨block, issuer, issuerKey, serialText, years, now⟩ (requestFor key name) :=
        Task.holds_iff.2 parsed
      have point : p256Point? (requestFor key name).info.publicKey = some key.point :=
        p256Point?_publicKeyInfo key
      rw [holds.signed_iff rfl]
      simp only [point, Option.some.injEq, exists_eq_left']
    · obtain ⟨request, notBefore, notAfter, serial, certificate, read, -, -, -, -, -, -, -, back⟩ :=
        signRequest_eq_ok_iff_readsBack.1 signed
      rw [parsed] at read
      cases read
      exact ⟨certificate, back.parsed, back.built.subject, back.built.publicKey⟩

/-- A request for a name with a part of two attributes, one of them not in ASCII, is found between two lines. -/
theorem exists_device_request_block : ∃ name text block,
    Name.ofText? "CN=Gerät 01+SERIALNUMBER=7,O=Example" = some name ∧
      requestText? ⟨1, by decide, by decide⟩ "CN=Gerät 01+SERIALNUMBER=7,O=Example" = some text ∧
      Report.requestBlock ("CSR:\n" ++ Octets.toAscii text ++ "OK\n") = some block ∧
      block ++ "\n" = Octets.toAscii text := by
  have spelled : ∃ name, Name.ofText? "CN=Gerät 01+SERIALNUMBER=7,O=Example" = some name ∧
      name.element.encode.length + 256 ≤ maxLength := by decide +kernel
  obtain ⟨name, named, small⟩ := spelled
  obtain ⟨exists_iff, short, -, signed⟩ := device_request_signed_iff ⟨1, by decide, by decide⟩ named
  obtain ⟨text, printed⟩ := exists_iff.2 (short small)
  obtain ⟨block, found, whole, -⟩ := signed text printed "CSR:\n" "OK\n" (by decide) (by decide)
  exact ⟨name, text, block, named, printed, found, whole⟩

end Authority

end SecureElement
