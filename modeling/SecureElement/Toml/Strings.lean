import SecureElement.Octets.Hex

/-!
The quoted texts of TOML: basic ones, in which a backslash escapes, and literal ones, each on one
line or on several.

Every reader is given what follows the opening quotes and answers with the text and what follows the
closing ones.
-/

namespace SecureElement.Toml

/-- Whether a character is a blank or a tab. -/
def isSpace (c : Char) : Bool := c == ' ' || c == '\t'

/-- Whether a character may stand in a text or a comment as it is: a tab, or anything but a control
character. -/
def isPlain (c : Char) : Bool := c == '\t' || (' ' ≤ c && c != '\x7F')

/-- What follows an end of line: a line feed, with or without a carriage return before it. -/
def afterNewline : List Char → Option (List Char)
  | '\n' :: rest => some rest
  | '\r' :: '\n' :: rest => some rest
  | _ => none

/-- The character that a letter stands for after a backslash. -/
def escaped? : Char → Option Char
  | 'b' => some '\x08'
  | 't' => some '\t'
  | 'n' => some '\n'
  | 'f' => some '\x0C'
  | 'r' => some '\r'
  | '"' => some '"'
  | '\\' => some '\\'
  | _ => none

/-- The character whose code point hexadecimal digits spell; there is none for half of a pair. -/
def codePoint? (digits : List Char) : Option Char := do
  let values ← digits.mapM Hex.digitValue?
  let n := values.foldl (fun acc d => acc * 16 + d) 0
  if n.isValidChar then some (Char.ofNat n) else none

/-- A character before what has been read. -/
def before (c : Char) : Option (List Char × List Char) → Option (List Char × List Char) :=
  Option.map fun (cs, rest) => (c :: cs, rest)

/-- A basic text on one line. -/
def basic : List Char → Option (List Char × List Char)
  | [] => none
  | '"' :: rest => some ([], rest)
  | '\\' :: 'u' :: a :: b :: c :: d :: rest => do
      before (← codePoint? [a, b, c, d]) (basic rest)
  | '\\' :: 'U' :: a :: b :: c :: d :: e :: f :: g :: h :: rest => do
      before (← codePoint? [a, b, c, d, e, f, g, h]) (basic rest)
  | '\\' :: c :: rest => do before (← escaped? c) (basic rest)
  | c :: rest => if isPlain c && c != '\\' then before c (basic rest) else none

/-- Whether nothing but blanks stands before the end of the line. -/
def restIsBlank (cs : List Char) : Bool :=
  (afterNewline (cs.dropWhile isSpace)).isSome

/-- A basic text on several lines. `folding` tells that a backslash at the end of a line has been
read, after which blanks and ends of lines do not count. One or two quotes may stand anywhere, also
before the closing ones. -/
def multiBasic : (folding : Bool) → List Char → Option (List Char × List Char)
  | _, [] => none
  | _, '"' :: '"' :: '"' :: '"' :: '"' :: rest => some (['"', '"'], rest)
  | _, '"' :: '"' :: '"' :: '"' :: rest => some (['"'], rest)
  | _, '"' :: '"' :: '"' :: rest => some ([], rest)
  | folding, '\r' :: '\n' :: rest =>
      if folding then multiBasic true rest else before '\n' (multiBasic false rest)
  | folding, '\n' :: rest =>
      if folding then multiBasic true rest else before '\n' (multiBasic false rest)
  | _, '\\' :: 'u' :: a :: b :: c :: d :: rest => do
      before (← codePoint? [a, b, c, d]) (multiBasic false rest)
  | _, '\\' :: 'U' :: a :: b :: c :: d :: e :: f :: g :: h :: rest => do
      before (← codePoint? [a, b, c, d, e, f, g, h]) (multiBasic false rest)
  | _, '\\' :: c :: rest =>
      match escaped? c with
      | some e => before e (multiBasic false rest)
      | none => if restIsBlank (c :: rest) then multiBasic true (c :: rest) else none
  | folding, c :: rest =>
      if folding && isSpace c then multiBasic true rest
      else if isPlain c && c != '\\' then before c (multiBasic false rest)
      else none

/-- A literal text on one line. -/
def literal : List Char → Option (List Char × List Char)
  | [] => none
  | '\'' :: rest => some ([], rest)
  | c :: rest => if isPlain c then before c (literal rest) else none

/-- A literal text on several lines. One or two quotes may stand anywhere, also before the closing
ones. -/
def multiLiteral : List Char → Option (List Char × List Char)
  | [] => none
  | '\'' :: '\'' :: '\'' :: '\'' :: '\'' :: rest => some (['\'', '\''], rest)
  | '\'' :: '\'' :: '\'' :: '\'' :: rest => some (['\''], rest)
  | '\'' :: '\'' :: '\'' :: rest => some ([], rest)
  | '\r' :: '\n' :: rest => before '\n' (multiLiteral rest)
  | '\n' :: rest => before '\n' (multiLiteral rest)
  | c :: rest => if isPlain c then before c (multiLiteral rest) else none

/-- What follows the opening quotes of a text on several lines; an end of line right after them does
not count. -/
def afterOpening (cs : List Char) : List Char :=
  (afterNewline cs).getD cs

/-- A quoted text on one line, with its quotes. -/
def quotedLine : List Char → Option (List Char × List Char)
  | '"' :: rest => basic rest
  | '\'' :: rest => literal rest
  | _ => none

/-- A quoted text of any form, with its quotes. -/
def quotedText : List Char → Option (List Char × List Char)
  | '"' :: '"' :: '"' :: rest => multiBasic false (afterOpening rest)
  | '\'' :: '\'' :: '\'' :: rest => multiLiteral (afterOpening rest)
  | cs => quotedLine cs

end SecureElement.Toml
