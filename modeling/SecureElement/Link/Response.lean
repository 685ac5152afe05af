import SecureElement.Text.Search

/-!
Responses to commands. A device answers with lines: some progress, one line with a status, a body and
a line that ends the response. `Reading.feed` takes one line at a time; `Reading.standings` is how a response
stands after each of its lines.
-/

namespace SecureElement

open Text

/-- The mark of a status line that tells success. -/
def successMark : String := "Status: Success"

/-- The mark of a status line that tells failure. -/
def failureMark : String := "Status: Failure"

/-- The mark of the line that ends a response. -/
def endMark : String := "COMMAND END"

/-- A whole response: its status and the lines between the status line and the last, line ends
included. -/
structure Response where
  success : Bool
  body : String
  deriving DecidableEq, Repr

/-- A command that the device did not carry out, and the body of its response. -/
structure CommandFailure where
  command : String
  output : String
  deriving DecidableEq, Repr

/-- The message of a command that failed. -/
def CommandFailure.message (f : CommandFailure) : String :=
  f.command ++ " failed to execute"

/-- The body of a response that tells success, or the failure of the command. -/
def Response.checkOk (r : Response) (command : String) : Except CommandFailure String :=
  if r.success then .ok r.body else .error ⟨command, r.body⟩

/-- A response that is being read. -/
inductive Reading where
  /-- No status line has come yet. -/
  | awaitingStatus
  /-- The status is known, and some of the body. -/
  | awaitingEnd (success : Bool) (body : String)
  deriving DecidableEq, Repr

/-- What a line does to a response. -/
inductive Progress where
  /-- More lines are to come. -/
  | more (reading : Reading)
  | finished (response : Response)
  /-- The response ended without a status. -/
  | missingStatus
  deriving DecidableEq, Repr

/-- A response that ended without a status. -/
structure MissingStatus where
  deriving DecidableEq, Repr

/-- What a line brings: the whole response, nothing yet, or that there is no status. -/
def Progress.outcome : Progress → Except MissingStatus (Option Response)
  | more _ => .ok none
  | finished response => .ok (some response)
  | missingStatus => .error {}

/-- How a response stands after a line. -/
structure Standing where
  status : Option Bool
  /-- What the line brought. -/
  outcome : Except MissingStatus (Option Response)
  deriving Repr

namespace Reading

/-- The status, once it is known. -/
def status? : Reading → Option Bool
  | awaitingStatus => none
  | awaitingEnd success _ => some success

/-- The next line of a response. -/
def feed : Reading → (line : String) → Progress
  | awaitingStatus, line =>
      if contains line successMark then .more (awaitingEnd true "")
      else if contains line failureMark then .more (awaitingEnd false "")
      else if contains line endMark then .missingStatus
      else .more awaitingStatus
  | awaitingEnd success body, line =>
      if contains line endMark then .finished ⟨success, body⟩
      else .more (awaitingEnd success (body ++ line))

/-- A response whose body was handed out. Its status is kept. -/
def handedOut : Reading → Reading
  | awaitingStatus => awaitingStatus
  | awaitingEnd success _ => awaitingEnd success ""

/-- A response after its next line. -/
def after (reading : Reading) (line : String) : Reading :=
  match reading.feed line with
  | .more later => later
  | .finished _ => reading.handedOut
  | .missingStatus => reading

/-- How a response stands after each line, up to the first that brings a response or ends it without a
status. -/
def standings : Reading → List String → List Standing
  | _, [] => []
  | reading, line :: lines =>
      ⟨(reading.after line).status?, (reading.feed line).outcome⟩ ::
        match reading.feed line with
        | .more later => standings later lines
        | _ => []

end Reading

/-- The message of a response that ended without a status. -/
def missingStatusMessage : String := "response ended before a status line was seen"

end SecureElement
