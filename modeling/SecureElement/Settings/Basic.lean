import SecureElement.Link.Exchange

/-!
Settings of a run. Each may be left open in a file or on the command line; one layer fills in what
the layer above leaves open, and what is open at the end has a default or is missing.
-/

namespace SecureElement

/-- The microcontrollers that a chip may be attached to. -/
inductive TargetChip where
  | esp32
  | esp32s2
  | esp32s3
  | esp32c3
  deriving DecidableEq, Repr

namespace TargetChip

/-- The name of a microcontroller in settings. -/
def name : TargetChip → String
  | esp32 => "esp32"
  | esp32s2 => "esp32s2"
  | esp32s3 => "esp32s3"
  | esp32c3 => "esp32c3"

/-- The name of a microcontroller in the log. -/
def logName : TargetChip → String
  | esp32 => "Esp32"
  | esp32s2 => "Esp32s2"
  | esp32s3 => "Esp32s3"
  | esp32c3 => "Esp32c3"

/-- All of them. -/
def all : List TargetChip := [esp32, esp32s2, esp32s3, esp32c3]

/-- The microcontroller with a name. -/
def ofName? (name : String) : Option TargetChip :=
  all.find? (·.name = name)

end TargetChip

/-- What may be set in a file or on the command line. -/
structure Settings where
  port : Option String := none
  targetChip : Option TargetChip := none
  signerCert : Option String := none
  signerKey : Option String := none
  sdaPin : Option Nat := none
  sclPin : Option Nat := none
  validForYears : Option Nat := none
  lockSlots : Option Bool := none
  outputDir : Option String := none
  /-- In seconds. -/
  commandDeadline : Option Nat := none
  deriving DecidableEq, Repr

/-- What is said on the command line for one run alone. -/
structure RunFlags where
  password : Option String := none
  /-- Tell the kind and the serial number of the chip and stop. -/
  printChipKind : Bool := false
  /-- Do not wait for the device to start. -/
  noWait : Bool := false
  deriving DecidableEq, Repr

/-- Everything that a run needs to know. -/
structure RunConfig where
  port : String
  targetChip : TargetChip
  signerCert : String
  signerKey : String
  password : Option String
  sdaPin : Nat
  sclPin : Nat
  printChipKind : Bool
  validForYears : Nat
  noWait : Bool
  /-- Lock the slots of the certificates for good. -/
  lockSlots : Bool
  outputDir : String
  exchange : ExchangeSettings
  deriving DecidableEq, Repr

/-- Why there are no settings for a run. -/
inductive SettingsError where
  | unreadable (path : String)
  | malformed (path : String)
  | missing (setting : String)
  deriving DecidableEq, Repr

/-- The message about settings that are not there. -/
def SettingsError.message : SettingsError → String
  | unreadable path => "failed to read " ++ path
  | malformed path => "failed to parse " ++ path
  | missing setting => "missing required setting `" ++ setting ++ "`"

namespace Settings

/-- The greatest number of a pin. -/
def maxPin : Nat := 255

/-- The greatest number of years. -/
def maxYears : Nat := 0xFFFFFFFF

/-- The greatest number of seconds. -/
def maxSeconds : Nat := 0xFFFFFFFFFFFFFFFF

/-- Settings filled in from those of a layer below. -/
def layeredOver (above below : Settings) : Settings where
  port := above.port.or below.port
  targetChip := above.targetChip.or below.targetChip
  signerCert := above.signerCert.or below.signerCert
  signerKey := above.signerKey.or below.signerKey
  sdaPin := above.sdaPin.or below.sdaPin
  sclPin := above.sclPin.or below.sclPin
  validForYears := above.validForYears.or below.validForYears
  lockSlots := above.lockSlots.or below.lockSlots
  outputDir := above.outputDir.or below.outputDir
  commandDeadline := above.commandDeadline.or below.commandDeadline

/-- The value of a setting that has no default. -/
def required {α : Type} (setting : String) : Option α → Except SettingsError α
  | some a => .ok a
  | none => .error (.missing setting)

/-- What a run needs to know, with defaults for what is left open. -/
def resolve (s : Settings) (flags : RunFlags) : Except SettingsError RunConfig := do
  let port ← required "port" s.port
  let targetChip ← required "target_chip" s.targetChip
  let signerCert ← required "signer_cert" s.signerCert
  let signerKey ← required "signer_key" s.signerKey
  return {
    port
    targetChip
    signerCert
    signerKey
    password := flags.password
    sdaPin := s.sdaPin.getD 21
    sclPin := s.sclPin.getD 22
    printChipKind := flags.printChipKind
    validForYears := s.validForYears.getD 40
    noWait := flags.noWait
    lockSlots := s.lockSlots.getD false
    outputDir := s.outputDir.getD "output_files"
    exchange := { ExchangeSettings.standard with
      commandDeadline := s.commandDeadline.map Duration.ofSecs } }

end Settings

end SecureElement
