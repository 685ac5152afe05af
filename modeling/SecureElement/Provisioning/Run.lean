import SecureElement.Authority.Issue
import SecureElement.Definition.Wire
import SecureElement.Provisioning.Failure
import SecureElement.Settings.Basic

/-!
A provisioning run: one device from its start to a provisioned or recorded chip.

Every step is a command whose response has to tell success, and the first failure ends the run.
Nothing is undone: a key that was generated or a certificate that was written stays on the chip.
-/

namespace SecureElement.Provisioning

open Authority

/-- A part of a run. -/
abbrev Step (α : Type) : Type := Session ProvisioningFailure α

/-! ### Commands -/

/-- The commands of a device. -/
inductive Command where
  | init (sdaPin sclPin : Nat)
  | printChipInfo
  | generateKeys (slot : Nat)
  | generateRequest
  | provideDefinition (slot length : Nat)
  | programDeviceCert (lock : Bool) (length : Nat)
  | programSignerCert (lock : Bool) (length : Nat)
  | getRootCert
  | getSignerCert
  | getDeviceCert
  deriving DecidableEq, Repr

/-- One for yes and zero for no. -/
def lockText (lock : Bool) : String := if lock then "1" else "0"

/-- The text of a command. -/
def Command.text : Command → String
  | init sdaPin sclPin => "init " ++ sdaPin.repr ++ " " ++ sclPin.repr
  | printChipInfo => "print-chip-info"
  | generateKeys slot => "generate-keys " ++ slot.repr
  | generateRequest => "generate-csr"
  | provideDefinition slot length => "provide-cert-def " ++ slot.repr ++ " " ++ length.repr
  | programDeviceCert lock length => "program-dev-cert " ++ lockText lock ++ " " ++ length.repr
  | programSignerCert lock length => "program-signer-cert " ++ lockText lock ++ " " ++ length.repr
  | getRootCert => "get-tngtls-root-cert"
  | getSignerCert => "get-tngtls-signer-cert"
  | getDeviceCert => "get-tngtls-device-cert"

/-- The slot of the device's key. -/
def keySlot : Nat := 0

/-- The slot of the device's certificate. -/
def deviceSlot : Nat := 0

/-- The slot of the signer's certificate. -/
def signerSlot : Nat := 1

/-- Carries out a command, which has to succeed; the result is the body of the response. -/
def execOk (config : RunConfig) (reads : Nat) (command : Command) (payload : Option Octets) :
    Step String := do
  let response ← Session.mapError .exchange
    (Exchange.exec config.exchange reads command.text payload)
  match response.checkOk command.text with
  | .ok body => return body
  | .error failure =>
      Session.log .error failure.message
      throw (.command failure)

/-! ### Files -/

/-- The path of a file in a directory. -/
def joinPath (directory name : String) : String :=
  if directory = "" ∨ directory.toList.getLast? = some '/' then directory ++ name
  else directory ++ "/" ++ name

/-- Writes a file, with the directories that it is to stand in. -/
def writeFile (path : String) (content : Octets) : Step Unit := do
  if ← Session.query (.writeFile path content) then pure ()
  else throw (.file path)

/-- The name of the file for the device's certificate. -/
def deviceCertName : String := "device_cert.pem"

/-- The name of the file for a manifest. -/
def manifestName (uniqueId : String) : String := uniqueId ++ "_manifest.json"

/-- The name of the file for the root certificate of a recorded chip. -/
def rootCertName (uniqueId : String) : String := uniqueId ++ "_root.pem"

/-! ### Chips -/

/-- The serial number that the chip reports. -/
def readSerial (config : RunConfig) (reads : Nat) : Step String := do
  let report ← execOk config reads .printChipInfo none
  match Report.serialNumber report with
  | none => throw (.report .serialNumber)
  | some serial =>
      Session.log .info ("Serial Number: " ++ serial)
      return serial

/-- A step of signing, as part of a run. -/
def signing {α : Type} (x : Except SigningError α) : Step α :=
  Session.ofExcept (x.mapError .signing)

/-! ### Blank chips -/

/-- What an authority signs with, and the text of its certificate. -/
structure Signer where
  key : Crypto.P256.PrivateKey
  certificate : X509.Certificate
  certificateText : Octets

/-- Loads what the authority signs with. -/
def loadSigner (config : RunConfig) : Step Signer := do
  let keyContent ← Session.query (.readFile config.signerKey)
  let keyText ← signing (contentOf config.signerKey keyContent)
  let key ← signing
    (parsePrivateKey config.signerKey keyText (config.password.map Utf8.encode))
  match ← Session.query (.readFile config.signerCert) with
  | none => throw (.file config.signerCert)
  | some certificateText =>
      let certificate ← signing (parseCertificate certificateText)
      return ⟨key, certificate, certificateText⟩

/-- Sends the definition of a certificate and then the certificate, without the white space around
it. `program` is the command for the certificate, given its length. -/
def programCert (config : RunConfig) (reads : Nat) (text : Octets) (kind : CertKind) (slot : Nat)
    (program : Nat → Command) : Step Unit := do
  let definition ← signing (CertDefinition.ofText text kind)
  let wire := definition.encode
  discard <| execOk config reads (.provideDefinition slot wire.length) (some wire)
  let payload := Octets.trimAscii text
  discard <| execOk config reads (program payload.length) (some payload)

/-- The request that the chip makes for a key it has generated. -/
def obtainRequest (config : RunConfig) (reads : Nat) : Step String := do
  Session.log .info "Provisioning the Device"
  discard <| execOk config reads (.generateKeys keySlot) none
  let report ← execOk config reads .generateRequest none
  match Report.requestBlock report with
  | none => throw (.report .request)
  | some request =>
      Session.log .info ("CSR obtained from device is:\n" ++ request)
      return request

/-- Signs a request and saves the certificate; the result is its text and the path of its file. -/
def issueDeviceCert (config : RunConfig) (signer : Signer) (serial request : String) :
    Step (Octets × String) := do
  let now ← Session.query .wallClock
  let text ← signing
    (signRequest request signer.certificate signer.key serial config.validForYears now)
  let trimmed := Text.trim (Octets.toAscii text)
  Session.log .info ("Device cert generated:\n" ++ trimmed)
  let path := joinPath config.outputDir deviceCertName
  writeFile path (Utf8.encode trimmed)
  Session.log .info ("Saved device cert to " ++ path)
  return (text, path)

/-- Gives both certificates to the chip. -/
def programCerts (config : RunConfig) (reads : Nat) (signer : Signer) (deviceText : Octets) :
    Step Unit := do
  if config.lockSlots then
    Session.log .warning "certificate slots will be permanently locked"
  Session.log .info "program device cert"
  programCert config reads deviceText .device deviceSlot (.programDeviceCert config.lockSlots)
  Session.log .info
    ("Signer cert is:\n" ++ Text.trim (Utf8.decodeLossy signer.certificateText))
  Session.log .info "Programming signer certificate"
  programCert config reads signer.certificateText .signer signerSlot
    (.programSignerCert config.lockSlots)

/-- Gives a blank chip its key and certificates. The authority's material is loaded before the chip
is changed. -/
def provisionBlank (config : RunConfig) (reads : Nat) (serial : String) : Step Outcome := do
  let signer ← loadSigner config
  let request ← obtainRequest config reads
  let (deviceText, path) ← issueDeviceCert config signer serial request
  programCerts config reads signer deviceText
  return .provisioned serial path

/-! ### Chips that come with certificates -/

/-- One of the certificates that the chip came with. -/
def readCert (config : RunConfig) (reads : Nat) (command : Command) : Step Octets := do
  let report ← execOk config reads command none
  Session.ofExcept ((Report.certificate command.text report).mapError .report)

/-- Records a chip that came with certificates. The device's certificate can only be read after the
signer's. -/
def recordChip (config : RunConfig) (reads : Nat) (chip : ChipKind) (serial : String) :
    Step Outcome := do
  let root ← readCert config reads .getRootCert
  let signer ← readCert config reads .getSignerCert
  let device ← readCert config reads .getDeviceCert
  let entry ← Session.ofExcept
    ((Manifest.Entry.ofCertificates chip serial device signer).mapError .manifest)
  let manifestPath := joinPath config.outputDir (manifestName entry.uniqueId)
  writeFile manifestPath (Utf8.encode (Manifest.text [entry]))
  let rootPath := joinPath config.outputDir (rootCertName entry.uniqueId)
  writeFile rootPath (Pem.encode ⟨certificateLabel, root⟩)
  Session.log .info "Manifest written"
  return .recorded chip serial manifestPath

/-! ### Whole runs -/

/-- Waits for the device to take commands, unless the run is told not to. -/
def awaitDevice (config : RunConfig) (reads : Nat) : Step Unit :=
  if config.noWait then pure ()
  else do
    let ready ← Session.mapError .exchange (Exchange.waitForReady config.exchange reads)
    if ready then pure () else throw .notReady

/-- The kind of the chip that the device finds. -/
def detectChip (config : RunConfig) (reads : Nat) : Step ChipKind := do
  let report ← execOk config reads (.init config.sdaPin config.sclPin) none
  match ChipKind.ofReport? report with
  | none => throw (.unknownChip (Text.trim report))
  | some chip =>
      Session.log .info ("ATECC608 chip is of type " ++ chip.name)
      return chip

/-- A whole run, with at most `reads` reads for each wait and each command. -/
def run (config : RunConfig) (reads : Nat) : Step Outcome := do
  awaitDevice config reads
  let chip ← detectChip config reads
  let serial ← readSerial config reads
  if config.printChipKind then return .chipInfo chip serial
  match chip with
  | .trustCustom => provisionBlank config reads serial
  | .trustAndGo | .trustFlex => recordChip config reads chip serial

end SecureElement.Provisioning
