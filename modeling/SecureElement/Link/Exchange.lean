import SecureElement.Link.Dialogue
import SecureElement.Link.Response
import SecureElement.Octets.Hex
import SecureElement.Octets.Utf8
import SecureElement.Text.Blank

/-!
The exchange of commands and responses with the device, and the wait for it to start.

Both read line after line until one of them decides. A device may stay silent for ever, so both are
told how many reads to make at most.
-/

namespace SecureElement

/-- The line by which a device tells that it takes commands. -/
def readyMark : String := "CLI started"

/-- The times that govern an exchange. -/
structure ExchangeSettings where
  /-- The wait for a line while a command is under way. -/
  commandReadTimeout : Duration
  /-- The pause between a command and its payload. -/
  payloadSettle : Duration
  /-- How long the device is given to start. -/
  readyWindow : Duration
  /-- The longest that a response may take, if there is a bound. -/
  commandDeadline : Option Duration
  deriving DecidableEq, Repr

/-- The times used if nothing else is said. -/
def ExchangeSettings.standard : ExchangeSettings where
  commandReadTimeout := .ofSecs 3
  payloadSettle := .ofMillis 100
  readyWindow := .ofSecs 20
  commandDeadline := none

/-- Why an exchange has no result. -/
inductive ExchangeError where
  | link (fault : LinkFault)
  | missingStatus (command : String)
  | deadlineExceeded (command : String) (deadline : Duration)
  /-- The last read that was allowed has been made. -/
  | outOfReads
  deriving DecidableEq, Repr

/-- The message of an exchange without a result. -/
def ExchangeError.message : ExchangeError → String
  | link fault => "transport error: " ++ fault.text
  | missingStatus command =>
      "response to `" ++ command ++ "` ended before a status line was seen"
  | deadlineExceeded command deadline =>
      "no complete response to `" ++ command ++ "` within " ++ deadline.text
  | outOfReads => "no further read is allowed"

namespace Exchange

/-- The text that stands in the log for octets that are no text. -/
def octetsText (octets : Octets) : String :=
  "[" ++ String.intercalate ", " (octets.map fun b => Hex.encodeLower [b]) ++ "]"

/-- A line from the device in the log. -/
def logBoot (raw : Octets) : Session ExchangeError Unit :=
  if raw = [] then pure ()
  else
    match Utf8.decode raw with
    | some line => Session.log .info (Text.trimRight line)
    | none => Session.log .info (octetsText raw)

/-- One line from the device. -/
def readLine : Session ExchangeError Octets := do
  match ← Session.query .readLine with
  | .ok raw => pure raw
  | .error fault => throw (.link fault)

/-- The time since a moment of the clock that never goes back. -/
def since (start : Duration) : Session ExchangeError Duration := do
  let now ← Session.query .elapsed
  pure ⟨now.nanos - start.nanos⟩

/-- Reads lines until one holds the mark of readiness or the window is over. -/
def pollReady (window start : Duration) : (reads : Nat) → Session ExchangeError Bool
  | 0 => throw .outOfReads
  | reads + 1 => do
      let raw ← readLine
      logBoot raw
      if Text.occursIn (Octets.ofAscii readyMark) raw then
        Session.log .info "Connected to CLI"
        return true
      let passed ← since start
      if window.nanos ≤ passed.nanos then
        Session.log .info "connection timed out"
        return false
      pollReady window start reads

/-- Whether the device tells that it takes commands. The window is looked at between reads, so the
wait may be longer by one read. -/
def waitForReady (settings : ExchangeSettings) (reads : Nat) : Session ExchangeError Bool := do
  Session.log .info "Wait for init"
  let start ← Session.query .elapsed
  pollReady settings.readyWindow start reads

/-- Fails once the deadline has come. -/
def checkDeadline (command : String) (deadline : Option Duration) (start : Duration) :
    Session ExchangeError Unit :=
  match deadline with
  | none => pure ()
  | some deadline => do
      let passed ← since start
      if deadline.nanos ≤ passed.nanos then throw (.deadlineExceeded command deadline)

/-- Reads lines until the response is whole. Empty reads and lines that are no text do not count. -/
def collect (command : String) (deadline : Option Duration) (start : Duration) :
    (reads : Nat) → Reading → Session ExchangeError Response
  | 0, _ => throw .outOfReads
  | reads + 1, reading => do
      checkDeadline command deadline start
      let raw ← readLine
      if raw = [] then collect command deadline start reads reading
      else
        match Utf8.decode raw with
        | none =>
            Session.log .warning "ignoring undecodable line"
            collect command deadline start reads reading
        | some line =>
            Session.log .debug (Text.trimRight line)
            match reading.feed line with
            | .more reading => collect command deadline start reads reading
            | .finished response => return response
            | .missingStatus => throw (.missingStatus command)

/-- The line that a command is sent as. -/
def commandLine (command : String) : Octets :=
  Utf8.encode command ++ [0x0D, 0x0A]

/-- Sends a payload after the pause that lets the device get ready for it. -/
def sendPayload (settings : ExchangeSettings) : Option Octets → Session ExchangeError Unit
  | none => pure ()
  | some payload => do
      Session.query (.sleep settings.payloadSettle)
      Session.query (.write payload)
      Session.log .debug ("Wrote " ++ payload.length.repr ++ " bytes of payload")

/-- Sends a command, and a payload if there is one, and collects the response. -/
def exec (settings : ExchangeSettings) (reads : Nat) (command : String) (payload : Option Octets) :
    Session ExchangeError Response := do
  Session.log .debug "Sending command"
  Session.query (.setReadTimeout settings.commandReadTimeout)
  Session.query (.write (commandLine command))
  sendPayload settings payload
  let start ← Session.query .elapsed
  collect command settings.commandDeadline start reads .awaitingStatus

end Exchange

end SecureElement
