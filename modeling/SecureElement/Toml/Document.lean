import SecureElement.Text.Decimal
import SecureElement.Toml.Strings
import SecureElement.Toml.Table

/-!
Documents in TOML, as far as settings are written in it: keys with texts, integers, Booleans, tables
and empty lists. A document with any other value is refused like a malformed one.
-/

namespace SecureElement.Toml

/-! ### Numbers and words -/

/-- Whether a character may stand in a bare key. -/
def isBare (c : Char) : Bool :=
  c.isAlphanum || c == '_' || c == '-'

/-- Whether a character may stand in a value without quotes. -/
def isWord (c : Char) : Bool :=
  isBare c || c == '+' || c == '.' || c == ':'

/-- Digits without the single low lines between them. -/
def digits? (isDigit : Char → Bool) : List Char → Option (List Char)
  | [] => none
  | [d] => if isDigit d then some [d] else none
  | d :: '_' :: rest => if isDigit d then (digits? isDigit rest).map (d :: ·) else none
  | d :: rest => if isDigit d then (digits? isDigit rest).map (d :: ·) else none

/-- The number that digits to a base of two, eight or sixteen denote. -/
def inBase? (base : Nat) (cs : List Char) : Option Nat := do
  let digits ← digits? (fun c => (Hex.digitValue? c).any (· < base)) cs
  let values ← digits.mapM Hex.digitValue?
  some (values.foldl (fun acc d => acc * base + d) 0)

/-- The number that decimal digits denote; a zero does not lead other digits. -/
def decimal? (cs : List Char) : Option Nat := do
  let digits ← digits? Decimal.isDigit cs
  if digits.head? = some '0' ∧ digits.length ≠ 1 then none
  else some (Decimal.valueOfDigits digits)

/-- The integer that a word denotes. -/
def integer? : List Char → Option Int
  | '0' :: 'x' :: digits => (inBase? 16 digits).map Int.ofNat
  | '0' :: 'o' :: digits => (inBase? 8 digits).map Int.ofNat
  | '0' :: 'b' :: digits => (inBase? 2 digits).map Int.ofNat
  | '+' :: digits => (decimal? digits).map Int.ofNat
  | '-' :: digits => (decimal? digits).map fun n => -(n : Int)
  | digits => (decimal? digits).map Int.ofNat

/-- Whether an integer fits 64 bits with a sign. -/
def isIntegerInRange (n : Int) : Bool :=
  -0x8000000000000000 ≤ n && n ≤ 0x7FFFFFFFFFFFFFFF

/-- The value that a word denotes. -/
def word? (cs : List Char) : Option Item :=
  if cs = "true".toList then some (.boolean true)
  else if cs = "false".toList then some (.boolean false)
  else
    match integer? cs with
    | some n => if isIntegerInRange n then some (.integer n) else none
    | none => none

/-! ### Keys -/

/-- A text without blanks at its start. -/
def skipSpace (cs : List Char) : List Char :=
  cs.dropWhile isSpace

/-- A key without points. -/
def simpleKey (cs : List Char) : Option (String × List Char) :=
  match quotedLine cs with
  | some (key, rest) => some (String.ofList key, rest)
  | none =>
      let key := cs.takeWhile isBare
      if key = [] then none else some (String.ofList key, cs.drop key.length)

/-- A key with points between its parts, and blanks around it: the parts before the last, and the
last. -/
def dottedKey : (fuel : Nat) → List Char → Option ((List String × String) × List Char)
  | 0, _ => none
  | fuel + 1, cs => do
      let (first, rest) ← simpleKey (skipSpace cs)
      match skipSpace rest with
      | '.' :: rest =>
          let ((path, key), rest) ← dottedKey fuel rest
          some ((first :: path, key), rest)
      | rest => some (([], first), rest)

/-! ### Comments and ends of lines -/

/-- What follows a comment, if one begins here. -/
def skipComment : List Char → List Char
  | '#' :: rest => rest.dropWhile isPlain
  | cs => cs

/-- What follows the end of a line on which only blanks and a comment are left. -/
def endLine (cs : List Char) : Option (List Char) :=
  match skipComment (skipSpace cs) with
  | [] => some []
  | cs => afterNewline cs

/-- What follows blanks, comments and ends of lines. -/
def skipLines : (fuel : Nat) → List Char → List Char
  | 0, cs => cs
  | fuel + 1, cs =>
      match afterNewline (skipComment (skipSpace cs)) with
      | some rest => skipLines fuel rest
      | none => skipSpace cs

/-! ### Values -/

mutual

/-- A value. -/
def value : (fuel : Nat) → List Char → Option (Item × List Char)
  | 0, _ => none
  | fuel + 1, cs =>
      match quotedText cs with
      | some (text, rest) => some (.text (String.ofList text), rest)
      | none =>
          match cs with
          | '\x7b' :: rest =>
              match skipSpace rest with
              | '\x7d' :: rest => some (.table .braces [], rest)
              | rest => pairs fuel [] rest
          | '[' :: rest =>
              match skipLines rest.length rest with
              | ']' :: rest => some (.emptyList, rest)
              | _ => none
          | cs => do
              let word := cs.takeWhile isWord
              some (← word? word, cs.drop word.length)

/-- The keys and values between braces, after those that have been read. -/
def pairs : (fuel : Nat) → Fields → List Char → Option (Item × List Char)
  | 0, _, _ => none
  | fuel + 1, fields, cs => do
      let ((path, key), item, rest) ← pair fuel cs
      let fields ← fields.assign path key item .opened
      match skipSpace rest with
      | ',' :: rest => pairs fuel fields rest
      | '\x7d' :: rest => some (.table .braces fields, rest)
      | _ => none

/-- A key and its value. -/
def pair : (fuel : Nat) → List Char → Option ((List String × String) × Item × List Char)
  | 0, _ => none
  | fuel + 1, cs => do
      let (key, rest) ← dottedKey cs.length cs
      match rest with
      | '=' :: rest =>
          let (item, rest) ← value fuel (skipSpace rest)
          some (key, item, rest)
      | _ => none

end

/-! ### Documents -/

/-- The lines of a document, after those that have been read, under a header. -/
def lines : (fuel : Nat) → (header : List String) → Fields → List Char → Option Fields
  | 0, _, _, _ => none
  | fuel + 1, header, document, cs =>
      match endLine cs with
      | some [] => some document
      | some rest => lines fuel header document rest
      | none =>
          match skipSpace cs with
          | '[' :: rest => do
              let ((path, key), rest) ← dottedKey rest.length rest
              match rest with
              | ']' :: rest =>
                  let document ← document.openTable path key
                  lines fuel (path ++ [key]) document (← endLine rest)
              | _ => none
          | cs => do
              let ((path, key), item, rest) ← pair cs.length cs
              let document ← document.assignUnder header path key item
              lines fuel header document (← endLine rest)

/-- The fields of a document; a byte order mark before it does not count. -/
def parse? (text : String) : Option Fields :=
  let cs := match text.toList with
    | '\uFEFF' :: rest => rest
    | cs => cs
  lines (cs.length + 1) [] [] cs

end SecureElement.Toml
