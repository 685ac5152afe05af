import SecureElement.Link.Dialogue
import SecureElement.Link.Response
import SecureElement.Octets.Utf8
import SecureElement.Text.Blank

/-!
A device that answers commands from a script, for trying out sessions.

Answers are kept by the first word of a command and used in the order in which they were given. A
command without an answer is refused. What is written and does not end with a line end is the payload
of the command before it.
-/

namespace SecureElement.Bench

/-- A scripted device. -/
structure Device where
  /-- The answers for the first words of commands, in the order in which they are used. -/
  answers : List (String × List Octets) := []
  /-- What can be read. -/
  pending : List Octets := []
  /-- Everything written, in order. -/
  writes : List Octets := []
  /-- The commands received, in order. -/
  commands : List String := []
  /-- The payloads received, each with its command, in order. -/
  payloads : List (String × Octets) := []
  /-- How many reads fail before the next one that does not. -/
  faults : Nat := 0
  readTimeout : Option Duration := none
  deriving Repr

/-- The message of a device that is no longer there. -/
def unplugged : LinkFault := ⟨"device unplugged"⟩

/-- The lines of a text, each with a line feed at its end. -/
def bodyLines : (line : List Char) → List Char → List (List Char)
  | [], [] => []
  | line, [] => [line ++ ['\n']]
  | line, '\n' :: rest => (line ++ ['\n']) :: bodyLines [] rest
  | line, c :: rest => bodyLines (line ++ [c]) rest

/-- The lines of a whole response. -/
def responseLines (command status body : String) : List Octets :=
  [Utf8.encode ("I (1042) cli: " ++ command ++ "\n"), Utf8.encode (status ++ "\n")] ++
    (bodyLines [] body.toList).map (fun line => Utf8.encode (String.ofList line)) ++
    [Utf8.encode (endMark ++ "\n")]

namespace Device

/-- A device with one more answer, given line by line. -/
def respond (d : Device) (command : String) (lines : List Octets) : Device :=
  { d with answers := d.answers ++ [(command, lines)] }

/-- A device with one more answer that tells success. -/
def respondOk (d : Device) (command body : String) : Device :=
  d.respond command (responseLines command successMark body)

/-- A device with one more answer that tells failure. -/
def respondFailure (d : Device) (command body : String) : Device :=
  d.respond command (responseLines command failureMark body)

/-- A device with more to be read that answers no command. -/
def pushOutput (d : Device) (line : Octets) : Device :=
  { d with pending := d.pending ++ [line] }

/-- A device whose next reads fail. -/
def injectFaults (d : Device) (count : Nat) : Device :=
  { d with faults := count }

/-- The first answer for a word, and the answers without it. -/
def takeAnswer (word : String) :
    List (String × List Octets) → Option (List Octets × List (String × List Octets))
  | [] => none
  | (w, lines) :: rest =>
      if w = word then some (lines, rest)
      else (takeAnswer word rest).map fun (found, rest) => (found, (w, lines) :: rest)

/-- The lines that answer a command without an answer. -/
def refusal (command : String) : List Octets :=
  responseLines command failureMark ("Unrecognized command: " ++ command)

/-- A device that has received a command. -/
def receive (d : Device) (command : String) : Device :=
  let (lines, answers) := (takeAnswer (Text.firstWord command) d.answers).getD
    (refusal command, d.answers)
  { d with answers, pending := d.pending ++ lines, commands := d.commands ++ [command] }

/-- What stands before a line end at the end. -/
def beforeLineEnd (octets : Octets) : Option Octets :=
  Text.withoutEnd [0x0D, 0x0A] octets

/-- A device that has been written to. -/
def write (d : Device) (octets : Octets) : Device :=
  let d := { d with writes := d.writes ++ [octets] }
  match beforeLineEnd octets with
  | some line => d.receive (Utf8.decodeLossy line)
  | none => { d with payloads := d.payloads ++ [(d.commands.getLastD "", octets)] }

/-- The next line, which is empty if there is none. -/
def readLine (d : Device) : Except LinkFault Octets × Device :=
  match d.faults with
  | faults + 1 => (.error unplugged, { d with faults })
  | 0 =>
      match d.pending with
      | [] => (.ok [], d)
      | line :: pending => (.ok line, { d with pending })

/-- The payload that followed the first command with a first word. -/
def payloadAfter (d : Device) (word : String) : Option Octets :=
  (d.payloads.find? fun (command, _) => Text.firstWord command = word).map (·.2)

end Device

end SecureElement.Bench
