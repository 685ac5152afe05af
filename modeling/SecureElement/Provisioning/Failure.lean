import SecureElement.Authority.Error
import SecureElement.Chip.Kind
import SecureElement.Chip.Report
import SecureElement.Link.Exchange
import SecureElement.Manifest.Entry

/-!
How a provisioning run can end.
-/

namespace SecureElement

/-- Why a run did not succeed. -/
inductive ProvisioningFailure where
  | notReady
  | exchange (error : ExchangeError)
  | command (failure : CommandFailure)
  /-- The report of a chip of no known kind, without the white space around it. -/
  | unknownChip (report : String)
  | report (error : ReportError)
  | signing (error : Authority.SigningError)
  | manifest (error : Manifest.ManifestError)
  | file (path : String)
  deriving DecidableEq, Repr

/-- The message of a run that did not succeed. -/
def ProvisioningFailure.message : ProvisioningFailure → String
  | notReady => "device CLI did not start; is the manufacturing firmware flashed?"
  | exchange error => error.message
  | command failure => failure.message
  | unknownChip text => ChipKind.unknownMessage text
  | report error => error.message
  | signing error => error.message
  | manifest error => error.message
  | file path => "failed to access " ++ path

/-- What a run that succeeded has done. -/
inductive Outcome where
  /-- Told the kind and the serial number of the chip. -/
  | chipInfo (chip : ChipKind) (serial : String)
  /-- Given a blank chip its certificates. -/
  | provisioned (serial : String) (deviceCert : String)
  /-- Recorded a chip that came with certificates. -/
  | recorded (chip : ChipKind) (serial : String) (manifest : String)
  deriving DecidableEq, Repr

end SecureElement
