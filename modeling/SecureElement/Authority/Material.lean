import SecureElement.Authority.Error
import SecureElement.Key.Encrypted
import SecureElement.Key.Info
import SecureElement.Pem
import SecureElement.X509.Certificate

/-!
The material an authority signs with: its private key and its certificate, each from a text with a
labelled document.
-/

namespace SecureElement.Authority

open Crypto X509 Key

/-- The content of the document in a text, which must have the expected label. -/
def decodePem (text expectedLabel : Octets) : Except SigningError Octets :=
  match Pem.decode text with
  | none => .error (.input .notPem)
  | some document =>
      if document.label = expectedLabel then .ok document.content
      else .error (.input (.wrongLabel expectedLabel document.label))

/-- The label of a certificate. -/
def certificateLabel : Octets := Octets.ofAscii "CERTIFICATE"

/-- The label of a certificate signing request. -/
def requestLabel : Octets := Octets.ofAscii "CERTIFICATE REQUEST"

/-- The label of a private key of any algorithm. -/
def keyInfoLabel : Octets := Octets.ofAscii "PRIVATE KEY"

/-- The label of a private key under a password. -/
def encryptedKeyLabel : Octets := Octets.ofAscii "ENCRYPTED PRIVATE KEY"

/-- The label of a private key of an elliptic curve. -/
def ecKeyLabel : Octets := Octets.ofAscii "EC PRIVATE KEY"

/-- The certificate in a text. -/
def parseCertificate (text : Octets) : Except SigningError Certificate := do
  let content ← decodePem text certificateLabel
  match Certificate.decode content with
  | some certificate => .ok certificate
  | none => .error (.input .encoding)

/-- The text of a certificate. -/
def certificateText (certificate : Certificate) : Octets :=
  Pem.encode ⟨certificateLabel, certificate.encode⟩

/-- The P-256 key in a private key of any algorithm. -/
def privateKeyOfInfo (bytes : Octets) : Except SigningError P256.PrivateKey :=
  match KeyInfo.decode bytes with
  | none => .error (.key .malformed)
  | some info =>
      if info.isP256 then
        match EcKey.ofOctets? info.key with
        | some key => .ok key
        | none => .error (.key .malformed)
      else .error (.input (.otherAlgorithm info.algorithm.oid))

/-- The P-256 key in a text that was read from a file. A password is needed for an encrypted key and
used for no other. -/
def parsePrivateKey (path : String) (text : Octets) (password : Option Octets) :
    Except SigningError P256.PrivateKey :=
  match Pem.decode text with
  | none => .error (.key (.notPem path))
  | some document =>
      if document.label = keyInfoLabel then privateKeyOfInfo document.content
      else if document.label = encryptedKeyLabel then
        match password with
        | none => .error (.key (.noPassword path))
        | some password =>
            match EncryptedKey.decode document.content with
            | none => .error (.key .malformed)
            | some encrypted =>
                match encrypted.decrypt password with
                | none => .error (.key (.undecryptable path))
                | some plain => privateKeyOfInfo plain
      else if document.label = ecKeyLabel then
        match EcKey.ofOctets? document.content with
        | some key => .ok key
        | none => .error (.key .malformed)
      else .error (.input (.unknownKeyForm path document.label))

/-- The text that stands for a private key in messages; it tells nothing of the key. -/
def privateKeyText : String := "SignerKey \x7b .. \x7d"

/-- The content of a file that was looked for at a path. -/
def contentOf (path : String) : Option Octets → Except SigningError Octets
  | some content => .ok content
  | none => .error (.unreadable path)

end SecureElement.Authority
