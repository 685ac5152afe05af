import SecureElement.CommandLine.Program
import Std.Time.DateTime.Timestamp

/-!
The program as it is started: the surroundings of its dialogue are the files, the clocks and the
serial port of the machine.

The port is used as it is set up. Its speed, and that one read of it is over after a short while even
if nothing has come, have to be set before the program starts.
-/

namespace SecureElement

/-- An open port, once for each direction. -/
structure OpenPort where
  input : IO.FS.Handle
  output : IO.FS.Handle

/-- The machine as the program has it. -/
structure Machine where
  port : Option OpenPort := none
  readTimeout : Duration := (SerialLine.PortSettings.standard "").readTimeout

namespace Machine

/-- The clock that never goes back. -/
def monotonicClock : IO Duration := do
  return ⟨← IO.monoNanosNow⟩

/-- The wall clock, in nanoseconds from the start of 1970. -/
def wallClock : IO Int := do
  return (← Std.Time.Timestamp.now).toNanosecondsSinceUnixEpoch.val

/-- The value of an action, if it succeeds. -/
def succeeding {α : Type} (action : IO α) : IO (Option α) :=
  try some <$> action catch _ => pure none

/-- Opens a port for both directions. -/
def openPort (name : String) : IO (Option OpenPort) :=
  succeeding do
    return ⟨← IO.FS.Handle.mk name .read, ← IO.FS.Handle.mk name .readWrite⟩

/-- One read of the port. -/
def readPort (port : OpenPort) : IO SerialLine.PortRead := do
  try
    match (← port.input.read 1).toList with
    | b :: _ => return .octet b
    | [] => return .nothing
  catch
    | .interrupted .. => return .interrupted
    | .timeExpired .. => return .timedOut
    | _ => return .failed

/-- Reads on until the line is over. -/
partial def readOn (port : OpenPort) (deadline : Duration) (line : Octets) :
    IO (Except LinkFault Octets) := do
  let read ← readPort port
  match SerialLine.step deadline line ⟨read, ← monotonicClock⟩ with
  | .more line => readOn port deadline line
  | .finished line => return .ok line
  | .failed => return .error SerialLine.readFault

/-- Writes an entry of the log. -/
def putLog (entry : LogEntry) : IO Unit :=
  IO.eprintln ((CommandLine.levelName entry.level).toUpper ++ " " ++ entry.text)

/-- Sends octets; the log tells if they could not be sent. -/
def send (port : OpenPort) (octets : Octets) : IO Unit := do
  try
    port.output.write (ByteArray.mk octets.toArray)
    port.output.flush
  catch _ => putLog SerialLine.writeFailed

/-- The directory that a path stands in. -/
def directoryOf (path : String) : String :=
  String.ofList (path.toList.reverse.dropWhile (· ≠ '/')).reverse

/-- Writes a file, after its directory. -/
def writeFile (path : String) (content : Octets) : IO Unit := do
  let directory := directoryOf path
  if directory ≠ "" then IO.FS.createDirAll directory
  IO.FS.writeBinFile path (ByteArray.mk content.toArray)

/-- The answer of the machine to a query. -/
def answer : (q : Query) → StateT Machine IO q.Answer
  | .openPort name => do
      let port ← openPort name
      modify ({ · with port })
      return port.isSome
  | .setReadTimeout timeout => modify ({ · with readTimeout := timeout })
  | .write octets => do
      match (← get).port with
      | some port => send port octets
      | none => putLog SerialLine.writeFailed
  | .readLine => do
      let machine ← get
      match machine.port with
      | some port =>
          let start ← monotonicClock
          readOn port ⟨start.nanos + machine.readTimeout.nanos⟩ []
      | none => return .error SerialLine.readFault
  | .sleep span => IO.sleep (UInt32.ofNat span.toMillis)
  | .elapsed => monotonicClock
  | .wallClock => wallClock
  | .readFile path => do
      return (← succeeding (IO.FS.readBinFile path)).map ByteArray.toList
  | .writeFile path content => do
      return (← succeeding (writeFile path content)).isSome
  | .log entry => putLog entry

/-- Leads a dialogue with the machine. -/
def lead {α : Type} : Dialogue α → StateT Machine IO α
  | .done a => pure a
  | .ask query next => answer query >>= fun given => lead (next given)

end Machine

/-- More attempts and reads than a person waits for. -/
def patientLimits : CommandLine.Limits := ⟨0x4000000000000000, 0x4000000000000000⟩

/-- Tells what is to be told at the end of the program. -/
def report : CommandLine.Ending → IO Unit
  | .told text => IO.println text
  | .succeeded => pure ()
  | .failed error => IO.eprintln ("Error: " ++ error.message)
  | .misused error => IO.eprintln ("Error: " ++ error.message)

end SecureElement

/-- The program. -/
def main (arguments : List String) : IO UInt32 := do
  let dialogue := SecureElement.CommandLine.program arguments SecureElement.patientLimits
  let (ending, _) ← (SecureElement.Machine.lead dialogue).run {}
  SecureElement.report ending
  return ending.exitCode.toUInt32
