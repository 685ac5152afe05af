import SecureElement.Link.Dialogue
import SecureElement.Settings.Basic
import SecureElement.Text.Decimal

/-!
The command line: what its options are and what a list of arguments asks for.

Arguments are read from left to right, and the first that cannot be read decides. An option with a
value takes it from the same argument, after an equals sign or straight after its letter, or from the
next argument, if that does not begin like an option. No option may be given twice, and there is
nothing but options.
-/

namespace SecureElement.CommandLine

/-- The options. -/
inductive Opt where
  | port
  | targetChip
  | signerCert
  | signerKey
  | password
  | sdaPin
  | sclPin
  | printChipKind
  | validForYears
  | noWait
  | log
  | lockSlots
  | outputDir
  | commandDeadline
  | config
  | help
  | version
  deriving DecidableEq, Repr

/-- What is known about an option. -/
structure OptEntry where
  option : Opt
  letter : Option Char
  /-- The first is the usual one. -/
  names : List String
  /-- What its value is, if it takes one. -/
  value : Option String
  meaning : String
  deriving Repr

/-- All options, in the order in which they are told. -/
def entries : List OptEntry := [
  ⟨.port, some 'p', ["port"], some "PORT", "Serial port that the device is connected to"⟩,
  ⟨.targetChip, none, ["target-chip", "target_chip"], some "CHIP",
    "Microcontroller: esp32, esp32s2, esp32s3 or esp32c3"⟩,
  ⟨.signerCert, none, ["signer-cert"], some "PATH", "Certificate of the signer (PEM)"⟩,
  ⟨.signerKey, none, ["signer-cert-private-key"], some "PATH", "Private key of the signer (PEM)"⟩,
  ⟨.password, none, ["pwd", "password"], some "PASSWORD", "Password of the private key"⟩,
  ⟨.sdaPin, none, ["i2c-sda-pin"], some "PIN", "Pin of the I2C data line [default: 21]"⟩,
  ⟨.sclPin, none, ["i2c-scl-pin"], some "PIN", "Pin of the I2C clock line [default: 22]"⟩,
  ⟨.printChipKind, none, ["type", "print-atecc608-type"], none,
    "Tell the kind of the chip and stop"⟩,
  ⟨.validForYears, none, ["valid-for-years"], some "YEARS",
    "Years that the certificate is valid for [default: 40]"⟩,
  ⟨.noWait, none, ["no-wait"], none, "Do not wait for the device to start"⟩,
  ⟨.log, some 'l', ["log"], some "LEVEL",
    "Least level of the log: debug, info, warning, error or critical [default: info]"⟩,
  ⟨.lockSlots, none, ["lock-slots", "lock_slots"], none,
    "Lock the slots of the certificates of a TrustCustom chip for good"⟩,
  ⟨.outputDir, none, ["output-dir"], some "DIR",
    "Directory for certificates and manifests [default: output_files]"⟩,
  ⟨.commandDeadline, none, ["command-deadline-secs"], some "SECS",
    "Give up on a command after this time"⟩,
  ⟨.config, none, ["config"], some "PATH", "TOML file with defaults for these options"⟩,
  ⟨.help, some 'h', ["help"], none, "Tell the options and stop"⟩,
  ⟨.version, some 'V', ["version"], none, "Tell the version and stop"⟩]

/-- The option with a name; names are not shortened. -/
def entryOfName? (name : String) : Option OptEntry :=
  entries.find? (·.names.contains name)

/-- The option with a letter. -/
def entryOfLetter? (letter : Char) : Option OptEntry :=
  entries.find? (·.letter = some letter)

/-- The name of a level on the command line. -/
def levelName : Level → String
  | .debug => "debug"
  | .info => "info"
  | .warning => "warning"
  | .error => "error"
  | .critical => "critical"

/-- The level with a name. -/
def levelOfName? (name : String) : Option Level :=
  [Level.debug, .info, .warning, .error, .critical].find? (levelName · = name)

/-- What a command line says about a run. -/
structure Arguments where
  settings : Settings := {}
  flags : RunFlags := {}
  /-- The least level of the log entries that are shown. -/
  level : Level := .info
  /-- The file with settings for what is left open. -/
  config : Option String := none
  deriving DecidableEq, Repr

/-- Why a command line cannot be read. -/
inductive UsageError where
  /-- An argument that is neither an option nor the value of one. -/
  | unexpected (argument : String)
  | unknown (argument : String)
  | repeated (option : Opt)
  | valueMissing (option : Opt)
  | valueNotTaken (option : Opt)
  | badValue (option : Opt) (value : String)
  deriving DecidableEq, Repr

/-- The usual name of an option. -/
def Opt.name (o : Opt) : String :=
  "--" ++ (((entries.find? (·.option = o)).bind (·.names.head?)).getD "")

/-- The message about a command line that cannot be read. -/
def UsageError.message : UsageError → String
  | unexpected argument => "unexpected argument '" ++ argument ++ "'"
  | unknown argument => "unknown option '" ++ argument ++ "'"
  | repeated option => "'" ++ option.name ++ "' is given more than once"
  | valueMissing option => "'" ++ option.name ++ "' needs a value"
  | valueNotTaken option => "'" ++ option.name ++ "' takes no value"
  | badValue option value => "'" ++ value ++ "' is no value for '" ++ option.name ++ "'"

/-- The number from zero to a bound that a numeral denotes, with any sign. -/
def signedUpTo? (bound : Nat) (numeral : String) : Option Nat := do
  let n ← Decimal.parseSigned? numeral.toList
  if 0 ≤ n ∧ n ≤ bound then some n.toNat else none

/-- The number up to a bound that a numeral without a minus sign denotes. -/
def unsignedUpTo? (bound : Nat) (numeral : String) : Option Nat := do
  let n ← Decimal.parseUnsigned? numeral.toList
  if n ≤ bound then some n else none

namespace Arguments

/-- The arguments with the value of one more option. -/
def withValue? (a : Arguments) (option : Opt) (value : String) : Option Arguments :=
  let set (s : Settings) : Arguments := { a with settings := s }
  let s := a.settings
  match option with
  | .port => some (set { s with port := some value })
  | .targetChip => (TargetChip.ofName? value).map fun v => set { s with targetChip := some v }
  | .signerCert => some (set { s with signerCert := some value })
  | .signerKey => some (set { s with signerKey := some value })
  | .password => some { a with flags := { a.flags with password := some value } }
  | .sdaPin =>
      (signedUpTo? Settings.maxPin value).map fun v => set { s with sdaPin := some v }
  | .sclPin =>
      (signedUpTo? Settings.maxPin value).map fun v => set { s with sclPin := some v }
  | .validForYears =>
      (signedUpTo? Settings.maxYears value).map fun v => set { s with validForYears := some v }
  | .log => (levelOfName? value).map fun level => { a with level }
  | .outputDir => some (set { s with outputDir := some value })
  | .commandDeadline =>
      (unsignedUpTo? Settings.maxSeconds value).map fun v =>
        set { s with commandDeadline := some v }
  | .config => some { a with config := some value }
  | .printChipKind | .noWait | .lockSlots | .help | .version => none

/-- The arguments with one more option that takes no value. -/
def withSwitch (a : Arguments) : Opt → Arguments
  | .printChipKind => { a with flags := { a.flags with printChipKind := true } }
  | .noWait => { a with flags := { a.flags with noWait := true } }
  | .lockSlots => { a with settings := { a.settings with lockSlots := some true } }
  | _ => a

end Arguments

/-- How an argument reads on its own. -/
inductive Token where
  /-- Two dashes, after which there are no options. -/
  | endOfOptions
  /-- An option, if it is a known one, and the value that is attached to it. -/
  | option (entry : Option OptEntry) (attached : Option String)
  /-- Anything else, such as the value of an option. -/
  | plain
  deriving Repr

/-- The value attached to a letter, with or without an equals sign. -/
def attachedToLetter : List Char → Option String
  | [] => none
  | '=' :: value => some (String.ofList value)
  | value => some (String.ofList value)

/-- How an argument reads. What follows the letter of an option without a value is not looked at:
all of those end the reading. -/
def Token.ofText (text : String) : Token :=
  match text.toList with
  | ['-', '-'] => endOfOptions
  | '-' :: '-' :: rest =>
      let entry := entryOfName? (String.ofList (rest.takeWhile (· ≠ '=')))
      match rest.dropWhile (· ≠ '=') with
      | [] => option entry none
      | _ :: value => option entry (some (String.ofList value))
  | '-' :: letter :: rest =>
      let entry := entryOfLetter? letter
      if entry.any (·.value.isNone) then option entry none
      else option entry (attachedToLetter rest)
  | _ => plain

/-- Whether an argument may be the value of the option before it. -/
def isValue (argument : String) : Bool :=
  match Token.ofText argument with
  | .plain => true
  | _ => false

/-- What a command line asks for. -/
inductive Invocation where
  | help
  | version
  | run (arguments : Arguments)
  deriving DecidableEq, Repr

/-- What has been read of a command line. -/
structure Gathered where
  given : List Opt := []
  arguments : Arguments := {}
  deriving Repr

namespace Gathered

/-- One more option, with its value if it takes one. -/
def put (g : Gathered) (option : Opt) (value : Option String) : Except UsageError Gathered :=
  if option ∈ g.given then .error (.repeated option)
  else
    match value with
    | none => .ok ⟨option :: g.given, g.arguments.withSwitch option⟩
    | some value =>
        match g.arguments.withValue? option value with
        | some arguments => .ok ⟨option :: g.given, arguments⟩
        | none => .error (.badValue option value)

/-- What the rest of a command line makes of what has been read. -/
def readOn (g : Gathered) : List String → Except UsageError Invocation
  | [] => .ok (.run g.arguments)
  | argument :: rest =>
      match Token.ofText argument with
      | .plain => .error (.unexpected argument)
      | .endOfOptions =>
          match rest with
          | [] => .ok (.run g.arguments)
          | next :: _ => .error (.unexpected next)
      | .option none _ => .error (.unknown argument)
      | .option (some entry) attached =>
          match entry.value, attached with
          | none, some _ => .error (.valueNotTaken entry.option)
          | none, none =>
              match entry.option with
              | .help => .ok .help
              | .version => .ok .version
              | option => do readOn (← g.put option none) rest
          | some _, some value => do readOn (← g.put entry.option (some value)) rest
          | some _, none =>
              match rest with
              | [] => .error (.valueMissing entry.option)
              | value :: rest =>
                  if isValue value then do readOn (← g.put entry.option (some value)) rest
                  else .error (.valueMissing entry.option)

end Gathered

/-- What a command line asks for. -/
def Invocation.ofArguments (arguments : List String) : Except UsageError Invocation :=
  Gathered.readOn {} arguments

end SecureElement.CommandLine
