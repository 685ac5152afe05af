import SecureElement.Chip.Kind
import SecureElement.Definition.Describe
import SecureElement.Manifest.Json
import SecureElement.Octets.Base64

/-!
Manifests of chips that come with keys and certificates: what a chip carries, recorded in the form in
which cloud services register devices.
-/

namespace SecureElement.Manifest

open X509

/-- Why a chip cannot be recorded. -/
inductive ManifestError where
  /-- One of its certificates is none. -/
  | certificate
  /-- Its public key does not have both coordinates of a point. -/
  | publicKey
  deriving DecidableEq, Repr

/-- The message about a chip that cannot be recorded. What the decoder says of a certificate that is none is not
kept; the message ends where it would stand. -/
def ManifestError.message : ManifestError → String
  | certificate => "malformed certificate from device: "
  | publicKey => "device public key is not an uncompressed P-256 point"

/-- The record of a chip. -/
structure Entry where
  chip : ChipKind
  uniqueId : String
  /-- The coordinates of the public key. -/
  x : Octets
  y : Octets
  device : Octets
  signer : Octets
  deriving DecidableEq, Repr

namespace Entry

/-- A letter of ASCII in lower case; every other character as it is. -/
def lowerAscii (text : String) : String :=
  text.map fun c => if 'A' ≤ c ∧ c ≤ 'Z' then Char.ofNat (c.toNat + 32) else c

/-- The record of a chip with the serial number and the certificates that it reported. -/
def ofCertificates (chip : ChipKind) (serial : String) (device signer : Octets) :
    Except ManifestError Entry := do
  let certificate ← match Certificate.decode device with
    | some certificate => .ok certificate
    | none => .error .certificate
  if (Certificate.decode signer).isNone then throw .certificate
  let point := certificate.body.publicKey.key.octets
  if ¬ CertDefinition.isUncompressedPoint point then throw .publicKey
  return {
    chip
    uniqueId := lowerAscii serial
    x := (point.drop 1).take 32
    y := point.drop 33
    device
    signer }

/-- The version of the form. -/
def version : Nat := 1

/-- The model that is recorded. -/
def model : String := "ATECC608"

/-- A record as a JSON document. -/
def json (e : Entry) : Json :=
  .record [
    ("version", .number version),
    ("model", .text model),
    ("partNumber", .text e.chip.partNumber),
    ("manufacturer", .record [
      ("organizationName", .text "Microchip Technology Inc"),
      ("organizationalUnitName", .text "Secure Products Group")]),
    ("uniqueId", .text e.uniqueId),
    ("publicKeySet", .record [
      ("keys", .list [.record [
        ("kid", .text "0"),
        ("kty", .text "EC"),
        ("crv", .text "P-256"),
        ("x", .text (Octets.toAscii (Base64.encodeUrlSafe e.x))),
        ("y", .text (Octets.toAscii (Base64.encodeUrlSafe e.y))),
        ("x5c", .list [
          .text (Octets.toAscii (Base64.encode e.device)),
          .text (Octets.toAscii (Base64.encode e.signer))])]])])]

end Entry

/-- The text of a manifest. -/
def text (entries : List Entry) : String :=
  (Json.list (entries.map Entry.json)).pretty

end SecureElement.Manifest
