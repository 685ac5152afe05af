import SecureElement.Authority.Material
import SecureElement.Authority.Validity
import SecureElement.Crypto.Ecdsa
import SecureElement.Text.Blank
import SecureElement.X509.Request

/-!
Issuing certificates for signing requests.

A request must carry a P-256 key and be signed by it. The certificate takes its subject and public
key from the request, its issuer from the issuer's certificate and its serial number from a text;
the same inputs give the same certificate.
-/

namespace SecureElement.Authority

open Der X509 Crypto

/-! ### Requests -/

/-- The request in a text; white space around it does not matter. -/
def parseRequest (text : String) : Except SigningError Request := do
  let content ← decodePem (Utf8.encode (Text.trim text)) requestLabel
  orRefuse .malformedRequest (Request.decode content)

/-- The P-256 point of a public key. -/
def p256Point? (key : PublicKeyInfo) : Option P256.Point :=
  if key.algorithm.oid = oidEcPublicKey ∧ key.algorithm.parametersOid? = some oidP256 ∧
      key.key.unused = 0 then
    P256.Point.decode key.key.octets
  else none

/-- Checks that a request is signed by the key that it carries. -/
def verifyRequest (request : Request) : Except SigningError Unit := do
  if request.algorithm.oid ≠ oidEcdsaWithSha256 then
    refuse (.requestAlgorithm request.algorithm.oid)
  let point ← orRefuse .requestKey (p256Point? request.info.publicKey)
  let signature ← orRefuse .requestSignature (Ecdsa.Signature.decode request.signature.octets)
  if Ecdsa.verify point request.info.encode signature then pure ()
  else refuse .requestUnverified

/-! ### Serial numbers -/

/-- The serial number that a hexadecimal text spells; white space around it does not matter. -/
def parseSerial (text : String) : Except SigningError Serial := do
  let octets ← orRefuse (.serialText text) (Hex.decode (Text.trimChars text.toList))
  let n := Octets.toNat octets
  if n = 0 then refuse .serialNotPositive
  else orRefuse .encoding (Serial.ofNat? n)

/-! ### Key identifiers -/

/-- The number of octets in the identifier of a key. -/
def keyIdSize : Nat := 20

/-- The identifier of a key: the start of the digest of its bits. -/
def keyId (key : PublicKeyInfo) : Octets :=
  (sha256.hash key.key.octets).take keyIdSize

/-- The identifier of the issuer's key: the one its certificate tells, else the one of its key. -/
def issuerKeyId (issuer : Certificate) : Except SigningError Octets :=
  match (issuer.body.extensions.getD []).find? (·.oid = Extension.oidSubjectKeyId) with
  | some extension => orRefuse .encoding extension.subjectKeyId?
  | none => .ok (keyId issuer.body.publicKey)

/-- Checks that a private key is the one that the issuer's certificate is for. -/
def checkIssuerKey (issuer : Certificate) (key : P256.PrivateKey) : Except SigningError Unit :=
  if issuer.body.publicKey.key.octets = key.publicOctets then .ok ()
  else refuse .issuerKeyMismatch

/-! ### Certificates -/

/-- A signed part with its signature. -/
def signBody (key : P256.PrivateKey) (body : ToBeSigned) : Certificate where
  body := body
  algorithm := ecdsaWithSha256
  signature := .ofOctets (Ecdsa.sign key body.encode).encode

/-- The certificate for a request that has been checked. -/
def certificateFor (request : Request) (issuer : Certificate) (issuerId : Octets)
    (serial : Serial) (period : Validity) : ToBeSigned where
  version := .v3
  serial := serial
  algorithm := ecdsaWithSha256
  issuer := issuer.body.subject
  validity := period
  subject := request.info.subject
  publicKey := request.info.publicKey
  issuerId := none
  subjectId := none
  extensions := some [.notAnAuthority, .subjectKeyId (keyId request.info.publicKey),
    .authorityKeyId issuerId]

/-- The certificate issued for the request in a text, valid from the hour of `now` on for a number
of calendar years. There is none that is longer than the greatest length that is read. -/
def issue (requestText : String) (issuer : Certificate) (key : P256.PrivateKey)
    (serialText : String) (years : Nat) (now : Moment) : Except SigningError Certificate := do
  let request ← parseRequest requestText
  verifyRequest request
  checkIssuerKey issuer key
  let notBefore ← issuanceTime now
  let notAfter ← addYears notBefore years
  let issuerId ← issuerKeyId issuer
  let serial ← parseSerial serialText
  let period ← periodBetween notBefore notAfter
  let certificate := signBody key (certificateFor request issuer issuerId serial period)
  if certificate.encode.length ≤ maxLength then .ok certificate else refuse .encoding

/-- The text of the certificate issued for the request in a text. -/
def signRequest (requestText : String) (issuer : Certificate) (key : P256.PrivateKey)
    (serialText : String) (years : Nat) (now : Moment) : Except SigningError Octets :=
  (issue requestText issuer key serialText years now).map certificateText

end SecureElement.Authority
