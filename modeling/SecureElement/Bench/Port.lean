import SecureElement.Link.OpenLine

/-!
A serial port with a device that has already sent all that it will send, for trying out the reading
of lines. The clock stands still.
-/

namespace SecureElement.Bench

open SerialLine

/-- The state of a port. -/
structure Port where
  readTimeout : Duration
  /-- What has been sent by the device and not been read. -/
  incoming : Octets := []
  plugged : Bool := true
  /-- Latest first. -/
  log : List LogEntry := []
  deriving Repr

namespace Port

/-- The outcomes of the next reads: what is there, octet by octet, and then nothing more. -/
def events (p : Port) : List PortEvent :=
  if p.plugged then p.incoming.map (fun b => ⟨.octet b, ⟨0⟩⟩) ++ [⟨.timedOut, ⟨0⟩⟩]
  else [⟨.failed, ⟨0⟩⟩]

/-- The line over the port. -/
def line (p : Port) : OpenLine where
  readTimeout := p.readTimeout
  writeTimeout := (PortSettings.standard "").writeTimeout
  portTimeout := p.readTimeout
  events := p.events
  log := p.log

/-- The next line. -/
def readLine (p : Port) : Except LinkFault Octets × Port :=
  match p.line.readLine ⟨0⟩ with
  | (.finished line, rest) => (.ok line, { p with incoming := octetsOf rest.events })
  | (.more line, _) => (.ok line, { p with incoming := [] })
  | (.failed, _) => (.error readFault, p)

/-- What the device receives of octets that are written, and the port afterwards. A port takes every
timeout. -/
def write (p : Port) (octets : Octets) : Octets × Port :=
  let line := p.line.write octets ⟨true, p.plugged, true⟩
  (line.sent.reverse.flatten, { p with log := line.log })

/-- A port that waits as long as it is told from now on. -/
def setReadTimeout (p : Port) (timeout : Duration) : Port :=
  let line := p.line.setReadTimeout timeout true
  { p with readTimeout := line.readTimeout, log := line.log }

/-- A port whose device has sent more. -/
def send (p : Port) (octets : Octets) : Port :=
  { p with incoming := p.incoming ++ octets }

/-- A port whose device is gone, with all that was not read. -/
def unplug (p : Port) : Port :=
  { p with plugged := false, incoming := [] }

end Port

/-- The state of a place at which a port appears after some pauses. -/
structure PortPlace where
  name : String
  /-- After how many pauses the port is there. -/
  appearsAfter : Nat
  pauses : Nat := 0
  clock : Duration := ⟨0⟩
  /-- Latest first. -/
  log : List LogEntry := []
  deriving Repr

namespace PortPlace

/-- The answer to a query at the place; nothing but opening, pausing and the log has an effect. -/
def answer (q : Query) (p : PortPlace) : q.Answer × PortPlace :=
  match q with
  | .openPort name => (name == p.name && p.appearsAfter ≤ p.pauses, p)
  | .sleep span => ((), { p with pauses := p.pauses + 1, clock := ⟨p.clock.nanos + span.nanos⟩ })
  | .log entry => ((), { p with log := entry :: p.log })
  | .elapsed => (p.clock, p)
  | .setReadTimeout _ => ((), p)
  | .write _ => ((), p)
  | .readLine => (.ok [], p)
  | .wallClock => (0, p)
  | .readFile _ => (none, p)
  | .writeFile _ _ => (false, p)

/-- The result of a dialogue at the place, and the place afterwards. -/
def run {α : Type} (d : Dialogue α) (p : PortPlace) : α × PortPlace :=
  d.run ⟨answer⟩ p

end PortPlace

end SecureElement.Bench
