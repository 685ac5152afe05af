import SecureElement.CommandLine.Options
import SecureElement.Link.SerialLine
import SecureElement.Provisioning.Run
import SecureElement.Settings.File

/-!
The program behind the command line: from its arguments to its end.
-/

namespace SecureElement.CommandLine

/-- Why a run that was asked for did not succeed. -/
inductive ProgramError where
  | settings (error : SettingsError)
  /-- The port was not there at the last attempt. -/
  | portAbsent (name : String)
  | run (failure : ProvisioningFailure)
  deriving DecidableEq, Repr

/-- The message of a program that did not succeed. -/
def ProgramError.message : ProgramError → String
  | settings error => error.message
  | portAbsent name => (SerialLine.openFault name).text
  | run failure => failure.message

/-- How a program ends. -/
inductive Ending where
  /-- Nothing but a text was asked for. -/
  | told (text : String)
  | succeeded
  | failed (error : ProgramError)
  | misused (error : UsageError)
  deriving DecidableEq, Repr

/-- The code that tells how a program ended. -/
def Ending.exitCode : Ending → UInt8
  | told _ => 0
  | succeeded => 0
  | failed _ => 1
  | misused _ => 2

/-- How often a program tries again before it gives up. -/
structure Limits where
  /-- Attempts to open the port. -/
  attempts : Nat
  /-- Reads for one command, and for the start of the device. -/
  reads : Nat
  deriving DecidableEq, Repr

/-- The line that tells an option. -/
def entryLine (e : OptEntry) : String :=
  let letter := match e.letter with
    | some c => "-" ++ c.toString ++ ", "
    | none => "    "
  let value := match e.value with
    | some v => " <" ++ v ++ ">"
    | none => ""
  "  " ++ letter ++ String.intercalate ", " (e.names.map ("--" ++ ·)) ++ value ++ "\n          " ++
    e.meaning

/-- The text that tells all options. -/
def helpText : String :=
  "Give the ATECC608 of an ESP32 the certificates it needs, or record those it has.\n\nOptions:\n" ++
    String.intercalate "\n" (entries.map entryLine)

/-- The text that tells the version. -/
def versionText : String := "0.1.0"

/-- The settings in the file that is named, if one is. -/
def fileSettings : Option String → Session ProgramError Settings
  | none => pure {}
  | some path => do
      let content ← Session.query (.readFile path)
      Session.ofExcept ((Settings.ofFile path content).mapError .settings)

/-- Everything that the run needs to know, from the arguments and the file they name. -/
def configOf (arguments : Arguments) : Session ProgramError RunConfig := do
  let file ← fileSettings arguments.config
  Session.ofExcept
    (((arguments.settings.layeredOver file).resolve arguments.flags).mapError .settings)

/-- The entry in the log about a run that succeeded. -/
def outcomeText : Outcome → String
  | .chipInfo chip serial => "ATECC608 type " ++ chip.name ++ ", serial number " ++ serial
  | .provisioned serial path =>
      "Device " ++ serial ++ " provisioned, certificate saved to " ++ path
  | .recorded chip serial path => chip.name ++ " device " ++ serial ++ " recorded in " ++ path

/-- The entry in the log about slots that are going to be locked. -/
def lockWarning : String :=
  "Slot locking requested: certificate slots will be permanently locked and cannot be reprogrammed"

/-- A run as the arguments ask for it. -/
def session (arguments : Arguments) (limits : Limits) : Session ProgramError Unit := do
  let config ← configOf arguments
  Session.log .info ("Target chip: " ++ config.targetChip.logName)
  if config.lockSlots then Session.log .warning lockWarning
  if ← Session.ofDialogue (SerialLine.openWithRetry config.port limits.attempts) then
    let outcome ← Session.mapError .run (Provisioning.run config limits.reads)
    Session.log .info (outcomeText outcome)
  else throw (.portAbsent config.port)

/-- The program, from its arguments to its end. -/
def program (arguments : List String) (limits : Limits) : Dialogue Ending :=
  match Invocation.ofArguments arguments with
  | .error error => pure (.misused error)
  | .ok .help => pure (.told helpText)
  | .ok .version => pure (.told versionText)
  | .ok (.run arguments) => do
      match ← (session arguments limits).run.keepLog arguments.level with
      | .ok () => return .succeeded
      | .error error => return .failed error

end SecureElement.CommandLine
