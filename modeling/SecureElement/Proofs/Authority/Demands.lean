import SecureElement.Proofs.Authority.Lengths
import SecureElement.Proofs.Time.Years

/-!
What is demanded before a certificate is issued.

There is a list of demands, each with the fault that is told if it is the first that is not met (`Demand`,
`Task.Meets`, `Task.Fault`, `Task.Refused`). Each step of the issuing checks one demand or a few in a row
(`Task.Checks`), and steps after one another check the demands after one another (`Task.Checks.bind`). So a
certificate is issued exactly if all demands are met, and what is refused is refused for the first that is not
(`signRequest_iff_demands`). The last demand is on the length of the certificate; it is met unless the request
or the issuer's certificate is nearly as long as the longest that is read.
-/

namespace SecureElement.Authority

open Der X509 Crypto

/-! ### Demands -/

/-- What a certificate is asked for with. -/
structure Task where
  requestText : String
  issuer : Certificate
  key : P256.PrivateKey
  serialText : String
  years : Nat
  now : Moment

/-- What is demanded before a certificate is issued. -/
inductive Demand where
  /-- The text of the request, trimmed, is a labelled document. -/
  | document
  /-- Its label is that of a request. -/
  | label
  /-- It holds a request. -/
  | request
  /-- The request is signed by the one algorithm that is known. -/
  | algorithm
  /-- The key of the request is a point of the curve. -/
  | publicKey
  /-- The signature of the request is well formed. -/
  | signature
  /-- It holds under the key of the request, over what is signed of the request. -/
  | signed
  /-- The key in the issuer's certificate is the public half of the private key. -/
  | issuerKey
  /-- The clock tells a time from the start of 1970 to the last second of 9999. -/
  | clock
  /-- The certificate is valid up to 9999 at the longest. -/
  | years
  /-- The first extension of the issuer's certificate that identifies its key can be read, if there is one. -/
  | issuerId
  /-- The text of the serial number, trimmed, consists of pairs of digits. -/
  | serialDigits
  /-- The serial number is not zero. -/
  | serialPositive
  /-- As an integer it takes twenty octets at most. -/
  | serialLength
  /-- The certificate is no longer than the longest that is read. -/
  | length
  deriving DecidableEq, Repr

/-- The demands on the request, the issuer, the clock and the serial number, in the order in which they are
checked. -/
def conditions : List Demand :=
  [.document, .label, .request, .algorithm, .publicKey, .signature, .signed, .issuerKey, .clock, .years,
    .issuerId, .serialDigits, .serialPositive, .serialLength]

namespace Task

variable {t : Task}

/-- The text of a request, trimmed, is a document with the label of a request, and holds this request. -/
def Holds (t : Task) (request : Request) : Prop :=
  ∃ content, Pem.decode (Utf8.encode (Text.trim t.requestText)) = some ⟨requestLabel, content⟩ ∧
    Request.decode content = some request

/-- A date is that of the last full second. -/
def Dated (t : Task) (date : DateTime) : Prop :=
  date.toSeconds = t.now.seconds

/-- The text of a serial number, trimmed, spells these octets. -/
def Spells (t : Task) (octets : Octets) : Prop :=
  Hex.decode (Text.trimChars t.serialText.toList) = some octets

/-- A certificate is what is made for a task, whether or not it is too long. -/
def Drafts (t : Task) (certificate : Certificate) : Prop :=
  ∃ request notBefore notAfter issuerId serial, parseRequest t.requestText = .ok request ∧
    issuanceTime t.now = .ok notBefore ∧ addYears notBefore t.years = .ok notAfter ∧
    issuerKeyId t.issuer = .ok issuerId ∧ parseSerial t.serialText = .ok serial ∧
    certificate = signBody t.key (certificateFor request t.issuer issuerId serial (.between notBefore notAfter))

/-- A task meets a demand. -/
def Meets (t : Task) : Demand → Prop
  | .document => ∃ document, Pem.decode (Utf8.encode (Text.trim t.requestText)) = some document
  | .label => ∃ content, Pem.decode (Utf8.encode (Text.trim t.requestText)) = some ⟨requestLabel, content⟩
  | .request => ∃ request, t.Holds request
  | .algorithm => ∃ request, t.Holds request ∧ request.algorithm.oid = oidEcdsaWithSha256
  | .publicKey => ∃ request, t.Holds request ∧ ∃ point, p256Point? request.info.publicKey = some point
  | .signature => ∃ request, t.Holds request ∧ ∃ σ, Ecdsa.Signature.decode request.signature.octets = some σ
  | .signed => ∃ request, t.Holds request ∧ ∃ point, p256Point? request.info.publicKey = some point ∧
      Ecdsa.Accepts point request.info.encode request.signature.octets
  | .issuerKey => t.issuer.body.publicKey.key.octets = t.key.publicOctets
  | .clock => 0 ≤ t.now ∧ t.now ≤ (lastDate.toSeconds * nanosPerSecond : Nat)
  | .years => ∃ date, t.Dated date ∧ date.year + t.years ≤ 9999
  | .issuerId => ∀ x, (t.issuer.body.extensions.getD []).find? (·.oid = Extension.oidSubjectKeyId) = some x →
      ∃ id, x.subjectKeyId? = some id
  | .serialDigits => ∃ octets, t.Spells octets
  | .serialPositive => ∃ octets, t.Spells octets ∧ Octets.toNat octets ≠ 0
  | .serialLength => ∃ octets, t.Spells octets ∧ (Integer.ofNat (Octets.toNat octets)).length ≤ 20
  | .length => ∀ certificate, t.Drafts certificate → certificate.encode.length ≤ maxLength

/-- The fault that is told if a demand is the first that is not met. -/
def Fault (t : Task) : Demand → InputFault → Prop
  | .document, fault => fault = .notPem
  | .label, fault => ∃ document, Pem.decode (Utf8.encode (Text.trim t.requestText)) = some document ∧
      fault = .wrongLabel requestLabel document.label
  | .request, fault => fault = .malformedRequest
  | .algorithm, fault => ∃ request, t.Holds request ∧ fault = .requestAlgorithm request.algorithm.oid
  | .publicKey, fault => fault = .requestKey
  | .signature, fault => fault = .requestSignature
  | .signed, fault => fault = .requestUnverified
  | .issuerKey, fault => fault = .issuerKeyMismatch
  | .clock, fault => fault = .encoding
  -- A year that does not fit its field is told from one that has no date.
  | .years, fault => ∃ date, t.Dated date ∧
      fault = if lastYear < date.year + t.years then .yearsOutOfRange t.years date.year else .encoding
  | .issuerId, fault => fault = .encoding
  | .serialDigits, fault => fault = .serialText t.serialText
  | .serialPositive, fault => fault = .serialNotPositive
  | .serialLength, fault => fault = .encoding
  | .length, fault => fault = .encoding

/-- A task is refused for the first of some demands that is not met. -/
inductive Refused (t : Task) : List Demand → InputFault → Prop
  | here {d : Demand} {ds : List Demand} {fault : InputFault} (unmet : ¬ t.Meets d)
      (told : t.Fault d fault) : Refused t (d :: ds) fault
  | later {d : Demand} {ds : List Demand} {fault : InputFault} (met : t.Meets d)
      (refused : Refused t ds fault) : Refused t (d :: ds) fault

theorem refused_append_iff {ds ds' : List Demand} {fault : InputFault} :
    t.Refused (ds ++ ds') fault ↔ t.Refused ds fault ∨ (∀ d ∈ ds, t.Meets d) ∧ t.Refused ds' fault := by
  induction ds with
  | nil =>
      constructor
      · exact fun refused => .inr ⟨by simp, refused⟩
      · rintro (⟨⟨⟩⟩ | ⟨-, refused⟩)
        exact refused
  | cons d ds ih =>
      rw [List.cons_append, List.forall_mem_cons]
      constructor
      · rintro (⟨unmet, told⟩ | ⟨met, refused⟩)
        · exact .inl (.here unmet told)
        · rcases ih.1 refused with sooner | ⟨others, last⟩
          · exact .inl (.later met sooner)
          · exact .inr ⟨⟨met, others⟩, last⟩
      · rintro ((⟨unmet, told⟩ | ⟨met, refused⟩) | ⟨⟨met, others⟩, refused⟩)
        · exact .here unmet told
        · exact .later met (ih.2 (.inl refused))
        · exact .later met (ih.2 (.inr ⟨others, refused⟩))

theorem refused_singleton_iff {d : Demand} {fault : InputFault} :
    t.Refused [d] fault ↔ ¬ t.Meets d ∧ t.Fault d fault := by
  constructor
  · rintro (⟨unmet, told⟩ | ⟨-, ⟨⟩⟩)
    exact ⟨unmet, told⟩
  · rintro ⟨unmet, told⟩
    exact .here unmet told

/-! ### Steps that check demands -/

/-- A step of the issuing is passed exactly if some demands are met, and is otherwise refused for the first of
them that is not. -/
structure Checks {α : Type} (t : Task) (x : Except SigningError α) (ds : List Demand) : Prop where
  passed : (∃ a, x = .ok a) ↔ ∀ d ∈ ds, t.Meets d
  refused : ∀ e, x = .error e ↔ ∃ fault, e = .input fault ∧ t.Refused ds fault

section

variable {α β : Type} {x : Except SigningError α}

/-- What is checked by a step, and then by the one after it. -/
theorem Checks.bind (ds : List Demand) {ds' : List Demand} {next : α → Except SigningError β}
    (first : t.Checks x ds) (second : ∀ a, x = .ok a → t.Checks (next a) ds') :
    t.Checks (x >>= next) (ds ++ ds') := by
  constructor
  case passed =>
    simp only [bind_eq_ok_iff, List.forall_mem_append]
    constructor
    · rintro ⟨b, a, here, there⟩
      exact ⟨first.passed.1 ⟨a, here⟩, (second a here).passed.1 ⟨b, there⟩⟩
    · rintro ⟨met, later⟩
      obtain ⟨a, here⟩ := first.passed.2 met
      obtain ⟨b, there⟩ := (second a here).passed.2 later
      exact ⟨b, a, here, there⟩
  case refused =>
    intro e
    simp only [bind_eq_error_iff, refused_append_iff]
    constructor
    · rintro (here | ⟨a, here, there⟩)
      · obtain ⟨fault, told, refused⟩ := (first.refused e).1 here
        exact ⟨fault, told, .inl refused⟩
      · obtain ⟨fault, told, refused⟩ := ((second a here).refused e).1 there
        exact ⟨fault, told, .inr ⟨first.passed.1 ⟨a, here⟩, refused⟩⟩
    · rintro ⟨fault, told, refused | ⟨met, refused⟩⟩
      · exact .inl ((first.refused e).2 ⟨fault, told, refused⟩)
      · obtain ⟨a, here⟩ := first.passed.2 met
        exact .inr ⟨a, here, ((second a here).refused e).2 ⟨fault, told, refused⟩⟩

/-- A step that is always passed checks nothing. -/
theorem Checks.of_ok {ds : List Demand} {a : α} {next : α → Except SigningError β} (passed : x = .ok a)
    (later : t.Checks (next a) ds) : t.Checks (x >>= next) ds := by
  rw [passed]
  exact later

/-- A step that checks one demand and can tell one fault only. -/
theorem checks_of_iff {d : Demand} (fault : InputFault) (passed : (∃ a, x = .ok a) ↔ t.Meets d)
    (only : ∀ e, x = .error e → e = .input fault) (told : ∀ fault', t.Fault d fault' ↔ fault' = fault) :
    t.Checks x [d] := by
  constructor
  case passed => rw [passed, List.forall_mem_singleton]
  case refused =>
    intro e
    simp only [refused_singleton_iff, told]
    constructor
    · intro failed
      refine ⟨fault, only e failed, fun met => ?_, rfl⟩
      obtain ⟨a, here⟩ := passed.2 met
      rw [failed] at here
      cases here
    · rintro ⟨_, rfl, unmet, rfl⟩
      cases here : x with
      | error e => rw [only e here]
      | ok a => exact absurd (passed.1 ⟨a, here⟩) unmet

theorem checks_orRefuse {d : Demand} {fault : InputFault} {value : Option α}
    (met : (∃ a, value = some a) ↔ t.Meets d) (told : ∀ fault', t.Fault d fault' ↔ fault' = fault) :
    t.Checks (orRefuse fault value) [d] := by
  refine checks_of_iff fault (by simpa using met) (fun e failed => ?_) told
  cases value with
  | none =>
      cases failed
      rfl
  | some a => cases failed

theorem checks_ite {d : Demand} {fault : InputFault} {c : Prop} [Decidable c] {a : α} (met : c ↔ t.Meets d)
    (told : ∀ fault', t.Fault d fault' ↔ fault' = fault) :
    t.Checks (if c then .ok a else refuse fault) [d] := by
  by_cases holds : c
  · rw [if_pos holds]
    exact checks_of_iff fault (by simp [← met, holds]) (fun e failed => by cases failed) told
  · rw [if_neg holds]
    refine checks_of_iff fault (by simp [← met, holds, refuse]) (fun e failed => ?_) told
    cases failed
    rfl

end

/-! ### The request -/

theorem Holds.unique {request request' : Request} (here : t.Holds request) (there : t.Holds request') :
    request = request' := by
  obtain ⟨content, document, decoded⟩ := here
  obtain ⟨content', document', decoded'⟩ := there
  rw [document] at document'
  cases document'
  rw [decoded] at decoded'
  exact Option.some.inj decoded'

theorem holds_iff {request : Request} : t.Holds request ↔ parseRequest t.requestText = .ok request := by
  simp only [Holds, parseRequest_eq_ok_iff, decodePem_eq_ok_iff]

/-- What is said of some request that a text holds is said of the one that it holds. -/
theorem Holds.exists_iff {request : Request} {P : Request → Prop} (holds : t.Holds request) :
    (∃ request', t.Holds request' ∧ P request') ↔ P request := by
  constructor
  · rintro ⟨request', there, here⟩
    rwa [holds.unique there]
  · exact fun here => ⟨request, holds, here⟩

theorem decodePem_eq (text label : Octets) :
    decodePem text label = orRefuse .notPem (Pem.decode text) >>= fun document =>
      if document.label = label then .ok document.content else refuse (.wrongLabel label document.label) := by
  unfold decodePem
  cases Pem.decode text <;> rfl

theorem checks_parseRequest (t : Task) :
    t.Checks (parseRequest t.requestText) [.document, .label, .request] := by
  rw [parseRequest]
  refine Checks.bind [.document, .label] ?_ fun content held => ?_
  · rw [decodePem_eq]
    refine Checks.bind [.document] (checks_orRefuse Iff.rfl fun _ => Iff.rfl) fun document found => ?_
    rw [orRefuse_eq_ok_iff] at found
    refine checks_ite ?_ fun fault => ?_
    · simp only [Meets, found, Option.some.injEq]
      constructor
      · intro same
        exact ⟨document.content, same ▸ rfl⟩
      · rintro ⟨content, rfl⟩
        rfl
    · simp only [Fault, found, Option.some.injEq]
      constructor
      · rintro ⟨_, rfl, told⟩
        exact told
      · intro told
        exact ⟨document, rfl, told⟩
  · rw [decodePem_eq_ok_iff] at held
    refine checks_orRefuse ?_ fun _ => Iff.rfl
    simp only [Meets, Holds, held, Option.some.injEq, Pem.Document.mk.injEq, true_and, exists_eq_left']

theorem verifyRequest_eq (request : Request) :
    verifyRequest request =
      (if request.algorithm.oid = oidEcdsaWithSha256 then .ok ()
        else refuse (.requestAlgorithm request.algorithm.oid)) >>= fun _ =>
      orRefuse .requestKey (p256Point? request.info.publicKey) >>= fun point =>
      orRefuse .requestSignature (Ecdsa.Signature.decode request.signature.octets) >>= fun σ =>
      if Ecdsa.verify point request.info.encode σ = true then .ok () else refuse .requestUnverified := by
  unfold verifyRequest
  by_cases known : request.algorithm.oid = oidEcdsaWithSha256
  · rw [if_pos known, if_neg (not_not_intro known)]
    rfl
  · rw [if_neg known, if_pos known]
    rfl

theorem checks_verifyRequest {request : Request} (holds : t.Holds request) :
    t.Checks (verifyRequest request) [.algorithm, .publicKey, .signature, .signed] := by
  rw [verifyRequest_eq]
  refine Checks.bind [.algorithm]
    (checks_ite (by rw [Meets, holds.exists_iff]) fun fault => by rw [Fault, holds.exists_iff]) fun _ _ => ?_
  refine Checks.bind [.publicKey]
    (checks_orRefuse (by rw [Meets, holds.exists_iff]) fun _ => Iff.rfl) fun point found => ?_
  refine Checks.bind [.signature]
    (checks_orRefuse (by rw [Meets, holds.exists_iff]) fun _ => Iff.rfl) fun σ decoded => ?_
  rw [orRefuse_eq_ok_iff] at found decoded
  refine checks_ite ?_ fun _ => Iff.rfl
  rw [Meets, holds.exists_iff]
  simp only [found, Option.some.injEq, exists_eq_left', Ecdsa.Accepts, decoded]

/-! ### The issuer -/

theorem checks_checkIssuerKey (t : Task) : t.Checks (checkIssuerKey t.issuer t.key) [.issuerKey] :=
  checks_ite Iff.rfl fun _ => Iff.rfl

theorem checks_issuerKeyId (t : Task) : t.Checks (issuerKeyId t.issuer) [.issuerId] := by
  unfold issuerKeyId
  split
  case h_1 x first =>
    refine checks_orRefuse ?_ fun _ => Iff.rfl
    simp only [Meets, first, Option.some.injEq, forall_eq']
  case h_2 none =>
    refine checks_of_iff .encoding ?_ (fun e failed => by cases failed) fun _ => Iff.rfl
    simp [Meets, none]

/-! ### The period -/

theorem checks_issuanceTime (t : Task) : t.Checks (issuanceTime t.now) [.clock] := by
  refine checks_of_iff .encoding exists_issuanceTime_iff (fun e failed => ?_) fun _ => Iff.rfl
  unfold issuanceTime at failed
  split at failed
  · split at failed
    · cases failed
    · cases failed
      rfl
  · cases failed
    rfl

/-- The hour of a certificate lies in the year of the moment at which it is issued. -/
theorem exists_dated {hour : DateTime} (issued : issuanceTime t.now = .ok hour) :
    ∃ date, t.Dated date ∧ date.year = hour.year ∧ ∀ other, t.Dated other → other = date := by
  obtain ⟨-, upper, rounded⟩ := issuanceTime_eq_ok_iff.1 issued
  obtain ⟨date, found⟩ := DateTime.exists_ofSeconds? (Moment.seconds_le upper)
  have dated : t.Dated date := DateTime.ofSeconds?_eq_some_iff.1 found
  have start : date.startOfHour = hour := DateTime.toSeconds_injective (by
    rw [DateTime.toSeconds_startOfHour, rounded, dated])
  refine ⟨date, dated, ?_, fun other there => DateTime.toSeconds_injective (there.trans dated.symm)⟩
  rw [← start]
  rfl

theorem checks_addYears {hour : DateTime} (issued : issuanceTime t.now = .ok hour) :
    t.Checks (addYears hour t.years) [.years] := by
  obtain ⟨date, dated, year, unique⟩ := exists_dated issued
  have met : t.Meets .years ↔ hour.year + t.years ≤ 9999 := by
    rw [← year]
    constructor
    · rintro ⟨other, there, bound⟩
      rwa [unique other there] at bound
    · intro bound
      exact ⟨date, dated, bound⟩
  refine checks_of_iff
    (if lastYear < date.year + t.years then .yearsOutOfRange t.years date.year else .encoding) ?_
    (fun e failed => ?_) fun fault => ?_
  case refine_1 =>
    rw [met]
    exact exists_addYears_iff
  case refine_2 =>
    rw [year]
    exact (addYears_refuses_iff.1 failed).2
  case refine_3 =>
    constructor
    · rintro ⟨other, there, told⟩
      rwa [unique other there] at told
    · intro told
      exact ⟨date, dated, told⟩

/-! ### The serial number -/

theorem checks_parseSerial (t : Task) :
    t.Checks (parseSerial t.serialText) [.serialDigits, .serialPositive, .serialLength] := by
  rw [parseSerial]
  refine Checks.bind [.serialDigits] (checks_orRefuse Iff.rfl fun _ => Iff.rfl) fun octets spelled => ?_
  rw [orRefuse_eq_ok_iff] at spelled
  have spells : ∀ {P : Octets → Prop}, (∃ octets', t.Spells octets' ∧ P octets') ↔ P octets := by
    intro P
    simp only [Spells, spelled, Option.some.injEq, exists_eq_left']
  have split : (if Octets.toNat octets = 0 then refuse .serialNotPositive
      else orRefuse .encoding (Serial.ofNat? (Octets.toNat octets))) =
      (if Octets.toNat octets ≠ 0 then .ok () else refuse .serialNotPositive) >>= fun _ =>
        orRefuse .encoding (Serial.ofNat? (Octets.toNat octets)) := by
    by_cases zero : Octets.toNat octets = 0
    · rw [if_pos zero, if_neg (not_not_intro zero)]
      rfl
    · rw [if_neg zero, if_pos zero]
      rfl
  simp only [split]
  refine Checks.bind [.serialPositive] (checks_ite (by rw [Meets, spells]) fun _ => Iff.rfl)
    fun _ _ => ?_
  refine checks_orRefuse ?_ fun _ => Iff.rfl
  rw [Meets, spells]
  by_cases few : (Integer.ofNat (Octets.toNat octets)).length ≤ 20 <;>
    simp [Serial.ofNat?, Serial.maxIssued, few]

/-! ### The certificate -/

/-- The certificate that is made is the only one that is. -/
theorem Drafts.eq {certificate : Certificate} {request : Request} {notBefore notAfter : DateTime}
    {issuerId : Octets} {serial : Serial} (drafts : t.Drafts certificate)
    (parsed : parseRequest t.requestText = .ok request) (dated : issuanceTime t.now = .ok notBefore)
    (later : addYears notBefore t.years = .ok notAfter) (identified : issuerKeyId t.issuer = .ok issuerId)
    (numbered : parseSerial t.serialText = .ok serial) :
    certificate = signBody t.key (certificateFor request t.issuer issuerId serial (.between notBefore notAfter)) := by
  obtain ⟨request', notBefore', notAfter', issuerId', serial', parsed', dated', later', identified',
    numbered', rfl⟩ := drafts
  rw [parsed] at parsed'
  cases parsed'
  rw [dated] at dated'
  cases dated'
  rw [later] at later'
  cases later'
  rw [identified] at identified'
  cases identified'
  rw [numbered] at numbered'
  cases numbered'
  rfl

/-- Issuing checks all demands, the one on the length of the certificate last. -/
theorem checks_issue (t : Task) :
    t.Checks (issue t.requestText t.issuer t.key t.serialText t.years t.now) (conditions ++ [.length]) := by
  unfold issue
  refine Checks.bind [.document, .label, .request] (checks_parseRequest t) fun request parsed => ?_
  refine Checks.bind [.algorithm, .publicKey, .signature, .signed]
    (checks_verifyRequest (holds_iff.2 parsed)) fun _ _ => ?_
  refine Checks.bind [.issuerKey] (checks_checkIssuerKey t) fun _ _ => ?_
  refine Checks.bind [.clock] (checks_issuanceTime t) fun notBefore dated => ?_
  refine Checks.bind [.years] (checks_addYears dated) fun notAfter later => ?_
  refine Checks.bind [.issuerId] (checks_issuerKeyId t) fun issuerId identified => ?_
  refine Checks.bind [.serialDigits, .serialPositive, .serialLength] (checks_parseSerial t)
    fun serial numbered => ?_
  refine Checks.of_ok (periodBetween_eq_ok notBefore notAfter) ?_
  refine checks_ite ⟨fun short certificate drafts => ?_, fun met => met _ ?_⟩ fun _ => Iff.rfl
  · rw [drafts.eq parsed dated later identified numbered]
    exact short
  · exact ⟨request, notBefore, notAfter, issuerId, serial, parsed, dated, later, identified, numbered, rfl⟩

/-- A certificate is not too long unless what is signed of the request and the issuer's certificate are. -/
theorem meets_length (small : ∀ request, t.Holds request →
    request.info.encode.length + t.issuer.encode.length + 512 ≤ maxLength) : t.Meets .length := by
  rintro certificate ⟨request, notBefore, notAfter, issuerId, serial, parsed, -, -, identified, numbered, rfl⟩
  have bound := small request (holds_iff.2 parsed)
  exact Nat.le_trans (length_signBody_le (issuerKeyId_eq_ok_iff.1 identified)
    (content_of_parseSerial numbered).2 bound) bound

end Task

theorem checks_signRequest (t : Task) :
    t.Checks (signRequest t.requestText t.issuer t.key t.serialText t.years t.now)
      (conditions ++ [.length]) := by
  have checks := t.checks_issue
  constructor
  case passed =>
    rw [← checks.passed]
    simp only [signRequest_eq_ok_iff]
    constructor
    · rintro ⟨_, certificate, issued, -⟩
      exact ⟨certificate, issued⟩
    · rintro ⟨certificate, issued⟩
      exact ⟨_, certificate, issued, rfl⟩
  case refused =>
    intro e
    rw [signRequest_eq_error_iff, checks.refused]

/-- For every task: if the certificate is no longer than the longest that is read, then it is issued exactly if
the conditions are met, and is otherwise refused for the first condition that is not. If it is longer, it is
refused for that after all conditions. It is not longer if what is signed of the request and the issuer's
certificate leave 512 octets. -/
theorem signRequest_iff_demands (t : Task) :
    (t.Meets .length →
      ((∃ text, signRequest t.requestText t.issuer t.key t.serialText t.years t.now = .ok text) ↔
        ∀ d ∈ conditions, t.Meets d) ∧
      ∀ e, signRequest t.requestText t.issuer t.key t.serialText t.years t.now = .error e ↔
        ∃ fault, e = .input fault ∧ t.Refused conditions fault) ∧
    (¬ t.Meets .length → ∀ e,
      signRequest t.requestText t.issuer t.key t.serialText t.years t.now = .error e ↔
        ∃ fault, e = .input fault ∧
          (t.Refused conditions fault ∨ (∀ d ∈ conditions, t.Meets d) ∧ fault = .encoding)) ∧
    ((∀ request, t.Holds request →
      request.info.encode.length + t.issuer.encode.length + 512 ≤ maxLength) → t.Meets .length) := by
  obtain ⟨passed, refused⟩ := checks_signRequest t
  simp only [Task.refused_append_iff, Task.refused_singleton_iff] at refused
  rw [List.forall_mem_append, List.forall_mem_singleton] at passed
  refine ⟨fun met => ⟨?_, fun e => ?_⟩, fun long e => ?_, Task.meets_length⟩
  · rw [passed, and_iff_left met]
  · rw [refused]
    simp only [met, not_true_eq_false, false_and, and_false, or_false]
  · rw [refused]
    simp only [long, not_false_eq_true, true_and, Task.Fault]

end SecureElement.Authority
