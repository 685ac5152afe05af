import SecureElement.Octets
import SecureElement.Time.Duration

/-!
Dialogues: programs that ask their surroundings for one thing after another, among them the lines of
a device, the clock and the files, and go on with the answers.

A dialogue is a tree. `Dialogue.run` answers its questions from a state, so that a whole session is a
function of the surroundings at its start; `Dialogue.Path` relates a dialogue to the questions and
answers of one way through it.
-/

namespace SecureElement

/-- How much a log entry matters, least first. -/
inductive Level where
  | debug
  | info
  | warning
  | error
  | critical
  deriving DecidableEq, Repr

/-- The place of a level in their order. -/
def Level.rank : Level → Nat
  | debug => 0
  | info => 1
  | warning => 2
  | error => 3
  | critical => 4

/-- An entry in the log: its level and its text. The named values that can go with an entry are not kept. -/
structure LogEntry where
  level : Level
  text : String
  deriving DecidableEq, Repr

/-- A failure of the link to the device, by its message. -/
structure LinkFault where
  text : String
  deriving DecidableEq, Repr

/-- What a program asks of its surroundings. -/
inductive Query where
  /-- Open the port with a name. -/
  | openPort (name : String)
  /-- Bound the wait for later lines. -/
  | setReadTimeout (timeout : Duration)
  /-- Send octets to the device; whether they arrive is not told. -/
  | write (octets : Octets)
  /-- Receive octets up to and with the next line feed, or what has come when the wait is over. -/
  | readLine
  | sleep (span : Duration)
  /-- Read the clock that never goes back. -/
  | elapsed
  /-- Read the wall clock, in nanoseconds from the start of 1970. -/
  | wallClock
  | readFile (path : String)
  /-- Write a file, after the directories it is to stand in. -/
  | writeFile (path : String) (content : Octets)
  | log (entry : LogEntry)
  deriving DecidableEq, Repr

/-- The kind of answer to a query. -/
@[reducible] def Query.Answer : Query → Type
  | openPort _ => Bool
  | setReadTimeout _ => Unit
  | write _ => Unit
  | readLine => Except LinkFault Octets
  | sleep _ => Unit
  | elapsed => Duration
  | wallClock => Int
  | readFile _ => Option Octets
  | writeFile _ _ => Bool
  | log _ => Unit

/-- A program that asks its surroundings. -/
inductive Dialogue (α : Type) : Type where
  | done (a : α)
  | ask (query : Query) (next : query.Answer → Dialogue α)

namespace Dialogue

variable {α β σ : Type}

/-- One dialogue after another. -/
def bind : Dialogue α → (α → Dialogue β) → Dialogue β
  | done a, f => f a
  | ask query next, f => ask query fun answer => bind (next answer) f

instance : Monad Dialogue where
  pure := done
  bind := bind

/-- A single query. -/
def query (q : Query) : Dialogue q.Answer :=
  ask q done

/-- An entry in the log. -/
def log (level : Level) (text : String) : Dialogue Unit :=
  query (.log ⟨level, text⟩)

/-- A dialogue without the log entries below a level. -/
def keepLog (least : Level) : Dialogue α → Dialogue α
  | done a => done a
  | ask (.log entry) next =>
      if entry.level.rank < least.rank then keepLog least (next ())
      else ask (.log entry) fun answer => keepLog least (next answer)
  | ask query next => ask query fun answer => keepLog least (next answer)

/-- The surroundings of a dialogue: how each query is answered from a state, and the state
afterwards. -/
structure Surroundings (σ : Type) where
  answer : (q : Query) → σ → q.Answer × σ

/-- The result of a dialogue in its surroundings, and the state afterwards. -/
def run (surroundings : Surroundings σ) : Dialogue α → σ → α × σ
  | done a, s => (a, s)
  | ask q next, s =>
      let (answer, s) := surroundings.answer q s
      run surroundings (next answer) s

/-- A query and its answer. -/
structure Step where
  query : Query
  answer : query.Answer

/-- One way through a dialogue: its questions with their answers, and its result. -/
inductive Path : Dialogue α → List Step → α → Prop where
  | done (a : α) : Path (done a) [] a
  | ask {q : Query} {next : q.Answer → Dialogue α} {answer : q.Answer} {steps : List Step} {a : α}
      (rest : Path (next answer) steps a) : Path (ask q next) (⟨q, answer⟩ :: steps) a

end Dialogue

/-- A dialogue that may fail. -/
abbrev Session (ε α : Type) : Type := ExceptT ε Dialogue α

namespace Session

variable {ε ε' α : Type}

/-- A dialogue that does not fail. -/
def ofDialogue (d : Dialogue α) : Session ε α :=
  ExceptT.mk (d.bind fun a => .done (.ok a))

/-- A single query. -/
def query (q : Query) : Session ε q.Answer :=
  ofDialogue (Dialogue.query q)

/-- An entry in the log. -/
def log (level : Level) (text : String) : Session ε Unit :=
  ofDialogue (Dialogue.log level text)

/-- A value that is there or a failure. -/
def ofExcept : Except ε α → Session ε α :=
  fun x => ExceptT.mk (.done x)

/-- A session whose failures are seen as failures of another kind. -/
def mapError (f : ε → ε') (s : Session ε α) : Session ε' α :=
  ExceptT.mk (s.run.bind fun
    | .ok a => .done (.ok a)
    | .error e => .done (.error (f e)))

end Session

end SecureElement
