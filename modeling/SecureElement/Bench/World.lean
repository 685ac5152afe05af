import SecureElement.Bench.Device
import SecureElement.Bench.Files
import SecureElement.Link.SerialLine

/-!
Surroundings for trying out sessions: a scripted device, a tree of files, clocks that move only when
something waits, and a log.
-/

namespace SecureElement.Bench

/-- How reading from the device takes time and fails. -/
structure Pace where
  /-- The time that a read takes which brings something. -/
  readTime : Duration
  /-- The number of the read that fails, counted from one. -/
  unplugAtRead : Option Nat
  deriving DecidableEq, Repr

/-- The state of the surroundings. -/
structure World where
  device : Device
  files : Files := .empty
  /-- If there is none, reading takes no time. -/
  pace : Option Pace := none
  /-- The name under which the device is found. -/
  portName : String := "port"
  clock : Duration := ⟨0⟩
  wallClock : Int := 0
  /-- The wait for a line. -/
  patience : Duration := .ofSecs 2
  reads : Nat := 0
  /-- How many reads in a row have brought nothing. -/
  emptyReads : Nat := 0
  /-- Latest first. -/
  log : List LogEntry := []
  deriving Repr

namespace World

/-- How many reads in a row may bring nothing. -/
def maxEmptyReads : Nat := 5000

/-- The message of a read after too many that brought nothing. -/
def exhausted : LinkFault := ⟨"script exhausted"⟩

/-- The world some time later. -/
def after (w : World) (span : Duration) : World :=
  { w with clock := ⟨w.clock.nanos + span.nanos⟩ }

/-- A line read at a pace. -/
def readPaced (w : World) (pace : Pace) : Except LinkFault Octets × World :=
  let w := { w with reads := w.reads + 1 }
  if pace.unplugAtRead = some w.reads then (.error unplugged, w)
  else
    match w.device.readLine with
    | (.error fault, device) => (.error fault, { w with device })
    | (.ok [], device) =>
        let w := { w with device, emptyReads := w.emptyReads + 1 }
        if maxEmptyReads < w.emptyReads then (.error exhausted, w)
        else (.ok [], w.after w.patience)
    | (.ok line, device) => (.ok line, { w with device, emptyReads := 0 }.after pace.readTime)

/-- A line read. -/
def readLine (w : World) : Except LinkFault Octets × World :=
  match w.pace with
  | some pace => w.readPaced pace
  | none =>
      let (line, device) := w.device.readLine
      (line, { w with device })

/-- The answer to a query, and the world afterwards. -/
def answer (q : Query) (w : World) : q.Answer × World :=
  match q with
  | .openPort name => (name == w.portName, w)
  | .setReadTimeout timeout =>
      ((), { w with
        patience := timeout
        device := { w.device with readTimeout := some timeout } })
  | .write octets => ((), { w with device := w.device.write octets })
  | .readLine => w.readLine
  | .sleep span => ((), w.after span)
  | .elapsed => (w.clock, w)
  | .wallClock => (w.wallClock, w)
  | .readFile path => (w.files.read? path, w)
  | .writeFile path content =>
      let (files, written) := w.files.write path content
      (written, { w with files })
  | .log entry => ((), { w with log := entry :: w.log })

/-- The world as the surroundings of a dialogue. -/
def surroundings : Dialogue.Surroundings World := ⟨answer⟩

/-- The result of a dialogue in the world, and the world afterwards. -/
def run {α : Type} (d : Dialogue α) (w : World) : α × World :=
  d.run surroundings w

end World

end SecureElement.Bench
