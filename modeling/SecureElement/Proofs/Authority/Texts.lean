import SecureElement.Authority.Issue
import SecureElement.Proofs.Pem.Encode
import SecureElement.Proofs.Pem.Trim

/-!
The texts of certificates and requests.

A text that is written for a certificate or a request holds it, with or without the white space around it.
A text that was read from a file does so without the white space unless it is indented.
-/

namespace SecureElement.Authority

open X509

theorem bind_eq_ok_iff {α β : Type} {x : Except SigningError α} {f : α → Except SigningError β}
    {b : β} : (x >>= f) = .ok b ↔ ∃ a, x = .ok a ∧ f a = .ok b := by
  cases x with
  | error e =>
      constructor
      · intro h
        cases h
      · rintro ⟨a, ⟨⟩, -⟩
  | ok a =>
      constructor
      · intro h
        exact ⟨a, rfl, h⟩
      · rintro ⟨a, ⟨⟩, h⟩
        exact h

theorem bind_eq_error_iff {α β : Type} {x : Except SigningError α} {f : α → Except SigningError β}
    {e : SigningError} : (x >>= f) = .error e ↔ x = .error e ∨ ∃ a, x = .ok a ∧ f a = .error e := by
  cases x with
  | error fault => simp [bind, Except.bind]
  | ok a => simp [bind, Except.bind]

@[simp] theorem orRefuse_eq_ok_iff {α : Type} {fault : InputFault} {x : Option α} {a : α} :
    orRefuse fault x = .ok a ↔ x = some a := by
  cases x <;> simp [orRefuse, refuse]

theorem decodePem_eq_ok_iff {text label content : Octets} :
    decodePem text label = .ok content ↔ Pem.decode text = some ⟨label, content⟩ := by
  unfold decodePem
  cases found : Pem.decode text with
  | none => simp
  | some document =>
      obtain ⟨label', content'⟩ := document
      by_cases same : label' = label <;> simp [same]

theorem parseCertificate_eq_ok_iff {text : Octets} {certificate : Certificate} :
    parseCertificate text = .ok certificate ↔
      ∃ content, decodePem text certificateLabel = .ok content ∧
        Certificate.decode content = some certificate := by
  unfold parseCertificate
  rw [bind_eq_ok_iff]
  refine exists_congr fun content => and_congr_right fun _ => ?_
  cases Certificate.decode content <;> simp

theorem parseRequest_eq_ok_iff {text : String} {request : Request} :
    parseRequest text = .ok request ↔
      ∃ content, decodePem (Utf8.encode (Text.trim text)) requestLabel = .ok content ∧
        Request.decode content = some request := by
  simp only [parseRequest, bind_eq_ok_iff, orRefuse_eq_ok_iff]

/-! ### Texts that were written -/

theorem encode_ne_nil (certificate : Certificate) : certificate.encode ≠ [] :=
  List.cons_ne_nil _ _

theorem plain_certificateLabel : ∀ b ∈ certificateLabel, b < 0x80 ∧ b ≠ 0x0B ∧ b ≠ 0x2D := by
  decide +kernel

theorem isLabel_certificateLabel : Pem.isLabel false certificateLabel = true := by
  decide

/-- What is written with the label of a certificate is read back, whatever it is. -/
theorem decodePem_encode {content : Octets} (some : content ≠ []) :
    decodePem (Pem.encode ⟨certificateLabel, content⟩) certificateLabel = .ok content := by
  rw [decodePem_eq_ok_iff]
  exact Pem.decode_encode isLabel_certificateLabel (fun b member => (plain_certificateLabel b member).2.2)
    some

/-- A certificate is read back from its text. -/
theorem decodePem_certificateText (certificate : Certificate) :
    decodePem (certificateText certificate) certificateLabel = .ok certificate.encode :=
  decodePem_encode (encode_ne_nil certificate)

theorem plain_certificateText (certificate : Certificate) :
    ∀ b ∈ certificateText certificate, b < 0x80 ∧ b ≠ 0x0B :=
  Pem.plain_encode fun b member =>
    ⟨(plain_certificateLabel b member).1, (plain_certificateLabel b member).2.1⟩

/-- A text that was written starts with a dash. -/
theorem not_indented_encode (document : Pem.Document) : ¬ Pem.Indented (Pem.encode document) := by
  rintro ⟨-, b, last, -⟩
  have start : (Pem.encode document).takeWhile Octets.isAsciiBlank = [] := by
    simp [Pem.encode, Pem.beginMark, Octets.ofAscii, Octets.isAsciiBlank]
  rw [start] at last
  cases last

theorem not_indented_certificateText (certificate : Certificate) :
    ¬ Pem.Indented (certificateText certificate) :=
  not_indented_encode _

section

variable {requestText serialText : String} {issuer : Certificate} {key : Crypto.P256.PrivateKey}
  {years : Nat} {now : Moment}

theorem signRequest_eq_ok_iff {text : Octets} :
    signRequest requestText issuer key serialText years now = .ok text ↔
      ∃ certificate, issue requestText issuer key serialText years now = .ok certificate ∧
        text = certificateText certificate := by
  unfold signRequest
  cases issue requestText issuer key serialText years now with
  | error e => simp [Except.map]
  | ok certificate => simp [Except.map, eq_comm]

theorem signRequest_eq_error_iff {e : SigningError} :
    signRequest requestText issuer key serialText years now = .error e ↔
      issue requestText issuer key serialText years now = .error e := by
  unfold signRequest
  cases issue requestText issuer key serialText years now <;> simp [Except.map]

end

/-! ### Texts without the white space around them -/

/-- What holds a document is not blank. -/
theorem trimAscii_ne_nil {text label content : Octets}
    (found : decodePem text label = .ok content) : Octets.trimAscii text ≠ [] := by
  intro none
  obtain ⟨lead, trail, cut, before, after⟩ := Octets.exists_trimAscii text
  obtain ⟨front, last, whole, -, dash, -⟩ := Pem.decode_dropEnd (decodePem_eq_ok_iff.1 found)
  have member : (0x2D : UInt8) ∈ text := by
    rw [whole]
    exact List.mem_append_left _ (List.mem_of_getLast? dash)
  rw [cut, none, List.append_nil] at member
  rcases List.mem_append.1 member with here | there
  · cases before _ here
  · cases after _ there

/-- An indented text holds no document at all without the white space around it. -/
theorem decodePem_trimAscii_of_indented {text label content content' : Octets}
    (found : decodePem text label = .ok content) (indented : Pem.Indented text) :
    decodePem (Octets.trimAscii text) label ≠ .ok content' := by
  intro trimmed
  have none := Pem.decode_trimAscii_of_indented (decodePem_eq_ok_iff.1 found) indented
  rw [decodePem_eq_ok_iff, none] at trimmed
  cases trimmed

/-- A text that is not indented holds the same document without the white space around it. -/
theorem decodePem_trimAscii {text label content : Octets}
    (found : decodePem text label = .ok content) (unindented : ¬ Pem.Indented text) :
    decodePem (Octets.trimAscii text) label = .ok content := by
  rw [decodePem_eq_ok_iff] at found ⊢
  exact Pem.decode_trimAscii found unindented

/-! ### Texts of requests -/

theorem plain_requestLabel : ∀ b ∈ requestLabel, b < 0x80 ∧ b ≠ 0x0B ∧ b ≠ 0x2D := by
  decide +kernel

theorem isLabel_requestLabel : Pem.isLabel false requestLabel = true := by
  decide

/-- A request is read back from its text. -/
theorem decodePem_requestText {content : Octets} (filled : content ≠ []) :
    decodePem (Utf8.encode (Text.trim (Octets.toAscii (Pem.encode ⟨requestLabel, content⟩))))
      requestLabel = .ok content := by
  have plain : ∀ b ∈ Pem.encode ⟨requestLabel, content⟩, b < 0x80 ∧ b ≠ 0x0B :=
    Pem.plain_encode fun b member =>
      ⟨(plain_requestLabel b member).1, (plain_requestLabel b member).2.1⟩
  rw [Octets.encode_trim_toAscii plain]
  refine decodePem_trimAscii (decodePem_eq_ok_iff.2 ?_) (not_indented_encode _)
  exact Pem.decode_encode isLabel_requestLabel (fun b member => (plain_requestLabel b member).2.2) filled

end SecureElement.Authority
