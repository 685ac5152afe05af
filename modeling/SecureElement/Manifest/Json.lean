import SecureElement.Octets.Hex

/-!
JSON documents of numbers, texts, lists and records, and their indented text.
-/

namespace SecureElement.Manifest

/-- A JSON document. -/
inductive Json where
  | number (n : Nat)
  | text (s : String)
  | list (items : List Json)
  | record (fields : List (String × Json))
  deriving Repr

namespace Json

/-- A character as it stands between the quotes of a text. -/
def escape (c : Char) : List Char :=
  if c = '"' then ['\\', '"']
  else if c = '\\' then ['\\', '\\']
  else if c = '\x08' then ['\\', 'b']
  else if c = '\x0C' then ['\\', 'f']
  else if c = '\n' then ['\\', 'n']
  else if c = '\r' then ['\\', 'r']
  else if c = '\t' then ['\\', 't']
  else if c < ' ' then
    ['\\', 'u', '0', '0', Hex.lowerDigit (c.toNat / 16), Hex.lowerDigit (c.toNat % 16)]
  else [c]

/-- A text between quotes. -/
def quote (s : String) : List Char :=
  '"' :: s.toList.flatMap escape ++ ['"']

/-- A new line at a depth of nesting, two blanks to a level. -/
def newline (depth : Nat) : List Char :=
  '\n' :: List.replicate (2 * depth) ' '

/-- Parts on lines of their own between two brackets; nothing if there are none. -/
def bracketed (opening closing : Char) (depth : Nat) : List (List Char) → List Char
  | [] => [opening, closing]
  | first :: rest =>
      opening :: newline (depth + 1) ++ first ++
        rest.flatMap (fun part => ',' :: newline (depth + 1) ++ part) ++
        newline depth ++ [closing]

mutual

/-- The indented text of a document that stands at a depth of nesting. -/
def chars (depth : Nat) : Json → List Char
  | number n => n.repr.toList
  | text s => quote s
  | list items => bracketed '[' ']' depth (itemChars (depth + 1) items)
  | record fields => bracketed '\x7b' '\x7d' depth (fieldChars (depth + 1) fields)

/-- The indented texts of the items of a list. -/
def itemChars (depth : Nat) : List Json → List (List Char)
  | [] => []
  | item :: rest => chars depth item :: itemChars depth rest

/-- The indented texts of the fields of a record, with their names. -/
def fieldChars (depth : Nat) : List (String × Json) → List (List Char)
  | [] => []
  | (name, value) :: rest =>
      (quote name ++ ':' :: ' ' :: chars depth value) :: fieldChars depth rest

end

/-- The indented text of a document. -/
def pretty (j : Json) : String :=
  String.ofList (j.chars 0)

end Json

end SecureElement.Manifest
