import SecureElement.Link.SerialLine

/-!
Open lines. The port of an open line waits no longer than the timeout that it took last, which is the one
for reading except while something is written. That it takes no timeout, or not all that is written, is
told to the log only.
-/

namespace SecureElement.SerialLine

/-- An open line. -/
structure OpenLine where
  readTimeout : Duration
  writeTimeout : Duration
  /-- The timeout that the port took last. -/
  portTimeout : Duration
  /-- The outcomes of the reads of the port that are to come. -/
  events : List PortEvent
  /-- What the port took for the device, write by write, latest first. -/
  sent : List Octets := []
  /-- Latest first. -/
  log : List LogEntry := []
  deriving Repr

/-- How a port takes what a write asks of it. -/
structure WriteOutcome where
  /-- Whether it takes the timeout for writing. -/
  prepared : Bool
  /-- Whether it takes all the octets. -/
  sent : Bool
  /-- Whether it takes the timeout for reading again. -/
  restored : Bool
  deriving DecidableEq, Repr

namespace OpenLine

/-- A line whose port has just been opened. -/
def opened (settings : PortSettings) (events : List PortEvent) : OpenLine where
  readTimeout := settings.readTimeout
  writeTimeout := settings.writeTimeout
  portTimeout := settings.readTimeout
  events := events

/-- A line with one more entry in the log. -/
def warn (l : OpenLine) (text : String) : OpenLine :=
  { l with log := ⟨.warning, text⟩ :: l.log }

/-- A line whose port was asked to take a timeout. -/
def offerTimeout (l : OpenLine) (timeout : Duration) (taken : Bool) (complaint : String) :
    OpenLine :=
  if taken then { l with portTimeout := timeout } else l.warn complaint

/-- The next line, begun at a time. -/
def readLine (l : OpenLine) (start : Duration) : LineProgress × OpenLine :=
  let (progress, events) := SerialLine.readLine start l.readTimeout l.events
  (progress, { l with events })

/-- A line after a write. -/
def write (l : OpenLine) (octets : Octets) (outcome : WriteOutcome) : OpenLine :=
  let l := l.offerTimeout l.writeTimeout outcome.prepared "failed to set write timeout"
  let l :=
    if outcome.sent then { l with sent := octets :: l.sent }
    else { l with log := writeFailed :: l.log }
  l.offerTimeout l.readTimeout outcome.restored "failed to restore read timeout"

/-- A line that waits as long as it is told from now on. -/
def setReadTimeout (l : OpenLine) (timeout : Duration) (taken : Bool) : OpenLine :=
  { l with readTimeout := timeout }.offerTimeout timeout taken "failed to set read timeout"

end OpenLine

end SecureElement.SerialLine
