import SecureElement.Link.Dialogue

/-!
Lines over a serial port. The port delivers octets one at a time, or tells that none came; a line
ends with a line feed, or when the wait for it is over.

`readLine` takes its octets from the outcomes of reads of the port, each with the time at which it
was over, and leaves the outcomes it does not need.
-/

namespace SecureElement.SerialLine

/-- The outcome of one read of the port. -/
inductive PortRead where
  | octet (b : UInt8)
  /-- The read ended without an octet and without a reason. -/
  | nothing
  /-- A signal came in between. -/
  | interrupted
  /-- No octet came within the timeout. -/
  | timedOut
  | failed
  deriving DecidableEq, Repr

/-- The octet that a read brought, if it did. -/
def PortRead.octet? : PortRead → Option UInt8
  | .octet b => some b
  | _ => none

/-- The outcome of a read and the time when it was over. -/
structure PortEvent where
  read : PortRead
  time : Duration
  deriving DecidableEq, Repr

/-- The octets among outcomes of reads. -/
def octetsOf (events : List PortEvent) : Octets :=
  events.filterMap (·.read.octet?)

/-- How the reading of a line stands. -/
inductive LineProgress where
  /-- The line goes on after these octets. -/
  | more (line : Octets)
  | finished (line : Octets)
  | failed
  deriving DecidableEq, Repr

/-- What the outcome of a read does to a line that is to be over by a deadline. -/
def step (deadline : Duration) (line : Octets) (event : PortEvent) : LineProgress :=
  match event.read with
  | .failed => .failed
  | .timedOut => .finished line
  | .octet b =>
      let line := line ++ [b]
      if b = 0x0A ∨ deadline.nanos ≤ event.time.nanos then .finished line else .more line
  | .nothing | .interrupted =>
      if deadline.nanos ≤ event.time.nanos then .finished line else .more line

/-- The line that follows the given octets, and the outcomes after it. If the outcomes end before
the line does, it goes on. -/
def readOn (deadline : Duration) : Octets → List PortEvent → LineProgress × List PortEvent
  | line, [] => (.more line, [])
  | line, event :: events =>
      match step deadline line event with
      | .more line => readOn deadline line events
      | progress => (progress, events)

/-- The next line, begun at a time under a read timeout. -/
def readLine (start timeout : Duration) (events : List PortEvent) :
    LineProgress × List PortEvent :=
  readOn ⟨start.nanos + timeout.nanos⟩ [] events

/-- The message of a read that failed. -/
def readFault : LinkFault := ⟨"uart read failed: "⟩

/-- The message of a port that cannot be opened. -/
def openFault (name : String) : LinkFault := ⟨"failed to open uart at " ++ name ++ ": "⟩

/-- The entry in the log for octets that could not be sent. -/
def writeFailed : LogEntry := ⟨.warning, "write to uart failed"⟩

/-- The settings of a port. -/
structure PortSettings where
  name : String
  baudRate : Nat
  readTimeout : Duration
  writeTimeout : Duration
  deriving DecidableEq, Repr

/-- The settings of the port with a name if nothing else is said. -/
def PortSettings.standard (name : String) : PortSettings where
  name := name
  baudRate := 115200
  readTimeout := .ofSecs 2
  writeTimeout := .ofSecs 1

/-- The pause between two attempts to open a port. -/
def openPause : Duration := .ofSecs 1

/-- Tries to open a port again and again, with a pause after each failure. -/
def retryOpen (name : String) : (attempts : Nat) → Dialogue Bool
  | 0 => pure false
  | attempts + 1 => do
      if ← Dialogue.query (.openPort name) then return true
      Dialogue.log .debug "attempt failed, retrying"
      Dialogue.query (.sleep openPause)
      retryOpen name attempts

/-- Opens a port, waiting for it to appear. The result is false only after the last attempt. -/
def openWithRetry (name : String) (attempts : Nat) : Dialogue Bool := do
  Dialogue.log .info ("Connecting to " ++ name)
  let opened ← retryOpen name attempts
  if opened then Dialogue.log .info ("Connected to " ++ name)
  return opened

end SecureElement.SerialLine
