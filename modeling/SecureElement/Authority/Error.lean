import SecureElement.Der.ObjectId
import SecureElement.Octets.Utf8

/-!
What can go wrong when key material, certificates and requests are used for signing, and how it is
told. What a decoder says of octets that it refuses is not kept; a text ends where it would stand.
-/

namespace SecureElement.Authority

open Der

/-- Why a file gives no private key. -/
inductive KeyFault where
  /-- The file is no labelled document. -/
  | notPem (path : String)
  /-- A password is needed and there is none. -/
  | noPassword (path : String)
  /-- The password is wrong, or the scheme is not in use. -/
  | undecryptable (path : String)
  /-- The key is malformed, out of range or does not fit its public half. -/
  | malformed
  deriving DecidableEq, Repr

/-- The parts of a certificate whose places are looked for. -/
inductive Part where
  | element
  | certificate
  | tbsCertificate
  | validity
  | subjectPublicKeyInfo
  | extensions
  | extensionValue
  | signature
  deriving DecidableEq, Repr

/-- Why an input cannot be used, however often it is tried. -/
inductive InputFault where
  /-- A text is no labelled document. -/
  | notPem
  | wrongLabel (expected actual : Octets)
  /-- A private key in a form that is not known. -/
  | unknownKeyForm (path : String) (label : Octets)
  /-- A private key for another algorithm or curve. -/
  | otherAlgorithm (oid : ObjectId)
  /-- An encoding that is malformed, or a value that has no encoding. -/
  | encoding
  | malformedRequest
  | requestAlgorithm (oid : ObjectId)
  | requestKey
  | requestSignature
  | requestUnverified
  /-- The private key is not the one that the issuer's certificate is for. -/
  | issuerKeyMismatch
  | serialText (text : String)
  | serialNotPositive
  /-- No date is so many years after the given year. -/
  | yearsOutOfRange (years year : Nat)
  /-- A part of a certificate is not where it should be. -/
  | malformedPart (part : Part)
  /-- A public key that does not have both coordinates of a point. -/
  | pointForm
  deriving DecidableEq, Repr

/-- What can go wrong in signing. -/
inductive SigningError where
  | unreadable (path : String)
  | key (fault : KeyFault)
  | input (fault : InputFault)
  deriving DecidableEq, Repr

/-- The text that tells a fault of a private key. -/
def KeyFault.text : KeyFault → String
  | notPem path => path ++ " is not a pem file: "
  | noPassword path => path ++ " is encrypted and no password was given"
  | undecryptable path => "failed to decrypt " ++ path
  | malformed => ""

/-- The name of a part of a certificate. -/
def Part.text : Part → String
  | element => "element"
  | certificate => "certificate"
  | tbsCertificate => "tbs certificate"
  | validity => "validity"
  | subjectPublicKeyInfo => "subject public key info"
  | extensions => "extensions"
  | extensionValue => "extension"
  | signature => "signature"

/-- The text that tells a fault of an input. -/
def InputFault.text : InputFault → String
  | notPem => "failed to decode pem: "
  | wrongLabel expected actual =>
      "improper pem label. Expected: " ++ Utf8.decodeLossy expected ++ ", Actual: " ++
        Utf8.decodeLossy actual
  | unknownKeyForm path label =>
      path ++ ": unsupported private key encoding `" ++ Utf8.decodeLossy label ++ "`"
  | otherAlgorithm oid => "only P-256 keys are supported, found algorithm " ++ oid.text
  | encoding => ""
  | malformedRequest => "malformed CSR: "
  | requestAlgorithm oid => "unsupported CSR signature algorithm " ++ oid.text
  | requestKey => "unsupported CSR public key: "
  | requestSignature => "bad CSR signature: "
  | requestUnverified => "CSR signature does not verify"
  | issuerKeyMismatch => "signer key does not match the signer certificate"
  | serialText text => "invalid serial number `" ++ text ++ "`: "
  | serialNotPositive => "serial number must be positive"
  | yearsOutOfRange years year => years.repr ++ " years after " ++ year.repr ++ " is out of range"
  | malformedPart part => "malformed " ++ part.text
  | pointForm => "public key is not an uncompressed P-256 point"

/-- The message of an error. -/
def SigningError.message : SigningError → String
  | unreadable path => "failed to read " ++ path
  | key fault => "failed to load private key: " ++ fault.text
  | input fault => "unsupported input: " ++ fault.text

/-- An input fault as the outcome. -/
def refuse {α : Type} (fault : InputFault) : Except SigningError α :=
  .error (.input fault)

/-- A value, or an input fault where there is none. -/
def orRefuse {α : Type} (fault : InputFault) : Option α → Except SigningError α
  | some a => .ok a
  | none => refuse fault

end SecureElement.Authority
