import SecureElement.Authority.Issue
import SecureElement.X509.NameText

/-!
A throwaway authority for trying out signing: its key and certificate, certificates that it issues,
and the keys and requests of devices.
-/

namespace SecureElement.Bench

open Crypto X509 Authority Key

/-- The key whose octets are all alike. -/
def keyOfSeed? (seed : UInt8) : Option P256.PrivateKey :=
  P256.PrivateKey.ofOctets? (List.replicate 32 seed)

/-- The public key of a private key. -/
def publicKeyInfo (key : P256.PrivateKey) : PublicKeyInfo :=
  .ofP256Point key.publicOctets

/-- The subject of the authority. -/
def authoritySubject : String := "CN=Test Signer CA,O=Certmfg Test"

/-- A day between 1970 and 2049, with a year of two digits. -/
def day? (year month dayOfMonth : Nat) : Option Time :=
  (DateTime.make? year month dayOfMonth 0 0 0).bind Time.utc?

/-- The extension that tells whether the subject is an authority itself. -/
def basicConstraints (isAuthority : Bool) : Extension :=
  if isAuthority then
    ⟨Extension.oidBasicConstraints, true, (Der.Element.sequence [.ofTrue]).encode⟩
  else .notAnAuthority

/-- A certificate of the bench. -/
def certificate? (issuerKey : P256.PrivateKey) (issuer subject : Name)
    (subjectKey : P256.PrivateKey) (serial : Octets) (isAuthority : Bool) :
    Option Certificate := do
  let publicKey := publicKeyInfo subjectKey
  some (signBody issuerKey {
    version := .v3
    serial := ← Serial.ofNat? (Octets.toNat serial)
    algorithm := ecdsaWithSha256
    issuer
    validity := ⟨← day? 2024 1 1, ← day? 2049 12 31⟩
    subject
    publicKey
    issuerId := none
    subjectId := none
    extensions := some [basicConstraints isAuthority, .subjectKeyId (keyId publicKey)] })

/-- An authority. -/
structure TestAuthority where
  key : P256.PrivateKey
  certificate : Certificate

namespace TestAuthority

/-- The authority of the bench, which is always the same. -/
def standard? : Option TestAuthority := do
  let key ← keyOfSeed? 0x5A
  let name ← Name.ofText? authoritySubject
  some ⟨key, ← certificate? key name name key [0x01] true⟩

/-- A certificate that the authority issues. -/
def issue? (a : TestAuthority) (subjectKey : P256.PrivateKey) (subject : String)
    (serial : Octets) : Option Certificate := do
  certificate? a.key a.certificate.body.subject (← Name.ofText? subject) subjectKey serial false

/-- The text of the authority's key. -/
def keyText (a : TestAuthority) : Octets :=
  Pem.encode ⟨keyInfoLabel, (KeyInfo.ofPrivateKey a.key).encode⟩

/-- The text of the authority's key in the form that holds nothing else. -/
def ecKeyText (a : TestAuthority) : Octets :=
  Pem.encode ⟨ecKeyLabel, (EcKey.ofPrivateKey a.key).encode⟩

/-- How the bench derives keys from passwords. -/
def derivation : KeyDerivation :=
  ⟨.iterated .sha256 (Octets.ofAscii "bench salt") 100, none⟩

/-- How the bench encrypts keys. -/
def cipher : KeyCipher :=
  ⟨32, List.replicate Cbc.blockSize 0x42⟩

/-- The text of the authority's key under a password. -/
def encryptedKeyText? (a : TestAuthority) (password : String) : Option Octets := do
  let content ← EncryptedKey.encrypt? derivation cipher (Utf8.encode password)
    (KeyInfo.ofPrivateKey a.key).encode
  some (Pem.encode ⟨encryptedKeyLabel, content⟩)

/-- The name of the file for the authority's certificate. -/
def certificateName : String := "signer_cert.pem"

/-- The name of the file for the authority's key. -/
def keyName : String := "signer_key.pem"

/-- The name of the file for the authority's key in the form that holds nothing else. -/
def ecKeyName : String := "signer_key.sec1.pem"

/-- The name of the file for the authority's key under a password. -/
def encryptedKeyName : String := "signer_key.enc.pem"

end TestAuthority

/-- The signing request of a key for a name. -/
def requestFor (key : P256.PrivateKey) (subject : Name) : Request :=
  let info : RequestInfo := ⟨subject, publicKeyInfo key, []⟩
  ⟨info, ecdsaWithSha256, .ofOctets (Ecdsa.sign key info.encode).encode⟩

/-- The text of a signing request, as a device would print it. There is none that is longer than the
greatest length that is read. -/
def requestText? (key : P256.PrivateKey) (subject : String) : Option Octets := do
  let request := requestFor key (← Name.ofText? subject)
  if request.encode.length ≤ Der.maxLength then some (Pem.encode ⟨requestLabel, request.encode⟩)
  else none

end SecureElement.Bench
