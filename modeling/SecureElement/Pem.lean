import SecureElement.Octets.Base64
import SecureElement.Text.Search

/-!
Textual encodings of binary documents: base 64 in lines of 64 symbols between two boundaries that
carry the same label.

`Pem.encode` writes the one form with line feeds. `Pem.decode` is strict about what stands between
the boundaries and lenient about line ends and about text before the first boundary.
-/

namespace SecureElement.Pem

open Text

/-- A labelled document. -/
structure Document where
  label : Octets
  content : Octets
  deriving DecidableEq, Repr

/-- The number of symbols in a full line. -/
def lineWidth : Nat := 64

/-- The mark at either end of a boundary. -/
def dashes : Octets := Octets.ofAscii "-----"

/-- The start of the first boundary. -/
def beginMark : Octets := Octets.ofAscii "-----BEGIN "

/-- The start of the last boundary. -/
def endMark : Octets := Octets.ofAscii "-----END "

/-- What follows an end of line: a line feed, a carriage return, or both. -/
def afterLineEnd : Octets → Option Octets
  | 0x0A :: rest => some rest
  | 0x0D :: 0x0A :: rest => some rest
  | 0x0D :: rest => some rest
  | _ => none

theorem length_le_of_afterLineEnd {text rest : Octets} (h : afterLineEnd text = some rest) :
    rest.length ≤ text.length := by
  unfold afterLineEnd at h
  split at h
  · simp_all
  · obtain rfl := Option.some.inj h
    simp only [List.length_cons]
    omega
  · simp_all
  · simp at h

/-- What precedes an end of line at the end. -/
def beforeLineEnd (text : Octets) : Option Octets :=
  match text.reverse with
  | 0x0A :: 0x0D :: rest => some rest.reverse
  | 0x0A :: rest => some rest.reverse
  | 0x0D :: rest => some rest.reverse
  | _ => none

/-- What follows the start of the first boundary. That stands at the start of a line, where a line
starts after a line feed, and no NUL stands before it. -/
def afterBeginMark : (atLineStart : Bool) → Octets → Option Octets
  | _, [] => none
  | atLineStart, b :: rest =>
      match if atLineStart then withoutStart beginMark (b :: rest) else none with
      | some label => some label
      | none => if b = 0 then none else afterBeginMark (b == 0x0A) rest

/-- Whether an octet may stand in a label anywhere: a printable ASCII character that is neither a
blank nor a dash. -/
def isLabelOctet (b : UInt8) : Bool :=
  (0x21 ≤ b && b ≤ 0x7E) && b != 0x2D

/-- Whether single blanks or tabs, none of them first, separate the words of a label.
`blankAllowed` tells whether a blank may come next. -/
def isLabel (blankAllowed : Bool) : Octets → Bool
  | [] => true
  | b :: rest =>
      if isLabelOctet b then isLabel true rest
      else blankAllowed && (b == 0x20 || b == 0x09) && isLabel false rest

/-- The label of the first boundary and what follows the line. -/
def splitLabel (text : Octets) : Option (Octets × Octets) := do
  let label := text.takeWhile (· != 0x2D)
  guard (isLabel false label)
  let rest ← withoutStart dashes (text.drop label.length)
  let body ← afterLineEnd rest
  some (label, body)

/-- What stands before the last boundary with the given label. Its line begins after an end of line;
one more may follow it. -/
def beforeEndMark (label text : Octets) : Option Octets := do
  let text := (beforeLineEnd text).getD text
  let text ← withoutEnd dashes text
  let text ← withoutEnd label text
  let text ← withoutEnd endMark text
  beforeLineEnd text

/-- The lines of a body: full ones, and a last one that may be shorter and may end with an end of
line. -/
def lines (body : Octets) : Option (List Octets) :=
  if body.length ≤ lineWidth then some [(beforeLineEnd body).getD body]
  else
    match h : afterLineEnd (body.drop lineWidth) with
    | none => none
    | some rest =>
        have := length_le_of_afterLineEnd h
        if rest = [] then some [body.take lineWidth]
        else (lines rest).map (body.take lineWidth :: ·)
termination_by body.length
decreasing_by
  simp only [lineWidth, Nat.not_le, List.length_drop] at *
  omega

/-- The octets that lines of symbols spell; none but the last line is padded. -/
def spelled (rows : List Octets) : Option Octets := do
  guard (rows.dropLast.all fun row => !row.contains Base64.pad)
  guard (rows.flatten ≠ [])
  Base64.decode rows.flatten

/-- The document in a text. -/
def decode (text : Octets) : Option Document := do
  let (label, rest) ← splitLabel (← afterBeginMark true text)
  let content ← spelled (← lines (← beforeEndMark label rest))
  some ⟨label, content⟩

/-- The text of a document, each line ended by a line feed. -/
def encode (document : Document) : Octets :=
  beginMark ++ document.label ++ dashes ++ [0x0A] ++
    ((Base64.encode document.content).chunks lineWidth).flatMap (· ++ [0x0A]) ++
    endMark ++ document.label ++ dashes ++ [0x0A]

end SecureElement.Pem
