import SecureElement.Octets.Hex
import SecureElement.Text.Decimal
import SecureElement.X509.Name

/-!
Distinguished names as texts, such as `CN=Device,O=Example`. The part that is encoded last stands
first; `+` joins the attributes of a part. A backslash takes the meaning from the character after it,
or begins two hexadecimal digits of an octet.
-/

namespace SecureElement.X509

open Der

namespace NameText

/-- The names of the attributes of X.520, in lower case, and the last arcs of their identifiers. -/
def directoryAttributes : List (String × Nat) := [
  ("cn", 3), ("commonname", 3), ("sn", 4), ("surname", 4), ("serialnumber", 5), ("c", 6),
  ("countryname", 6), ("l", 7), ("localityname", 7), ("st", 8), ("stateorprovincename", 8),
  ("street", 9), ("streetaddress", 9), ("o", 10), ("organizationname", 10), ("ou", 11),
  ("organizationalunitname", 11), ("title", 12), ("description", 13), ("searchguide", 14),
  ("businesscategory", 15), ("postaladdress", 16), ("postalcode", 17), ("postofficebox", 18),
  ("physicaldeliveryofficename", 19), ("telephonenumber", 20), ("telexnumber", 21),
  ("teletexterminalidentifier", 22), ("facsimiletelephonenumber", 23), ("x121address", 24),
  ("internationalisdnnumber", 25), ("registeredaddress", 26), ("destinationindicator", 27),
  ("preferreddeliverymethod", 28), ("member", 31), ("owner", 32), ("roleoccupant", 33),
  ("seealso", 34), ("userpassword", 35), ("name", 41), ("givenname", 42), ("initials", 43),
  ("generationqualifier", 44), ("x500uniqueidentifier", 45), ("dnqualifier", 46),
  ("enhancedsearchguide", 47), ("distinguishedname", 49), ("uniquemember", 50),
  ("houseidentifier", 51), ("pseudonym", 65)]

/-- The names of attributes, in lower case, and their object identifiers. -/
def attributeNames : List (String × List Nat) :=
  directoryAttributes.map (fun (name, last) => (name, [2, 5, 4, last])) ++ [
    ("uid", [0, 9, 2342, 19200300, 100, 1, 1]), ("userid", [0, 9, 2342, 19200300, 100, 1, 1]),
    ("dc", [0, 9, 2342, 19200300, 100, 1, 25]),
    ("domaincomponent", [0, 9, 2342, 19200300, 100, 1, 25]),
    ("emailaddress", [1, 2, 840, 113549, 1, 9, 1])]

/-- The pieces between separators that are not escaped. A separator is escaped by one backslash right
before it, and not by two. Empty pieces do not count. -/
def pieces (separator : Char) (text : List Char) : List (List Char) :=
  (go ' ' ' ' [] text).filter (· ≠ [])
where
  /-- The pieces from here on, after two characters and the start of a piece. -/
  go (beforeLast last : Char) (piece : List Char) : List Char → List (List Char)
    | [] => [piece]
    | c :: rest =>
        if c = separator ∧ (last ≠ '\\' ∨ beforeLast = '\\') then piece :: go last c [] rest
        else go last c (piece ++ [c]) rest

/-- Whether a character may follow a backslash for itself. -/
def isSpecial (c : Char) : Bool :=
  c ∈ [' ', '"', '#', '+', ',', ';', '<', '=', '>', '\\']

/-- The octets of a value. An escape that the text ends in stands for nothing. -/
def valueOctets : List Char → Option Octets
  | [] => some []
  | '\\' :: c :: rest =>
      if isSpecial c then (valueOctets rest).map (UInt8.ofNat c.toNat :: ·)
      else
        match rest with
        | d :: rest => do
            let octet ← Hex.decode [c, d]
            (valueOctets rest).map (octet ++ ·)
        | [] => (Hex.digitValue? c).map fun _ => []
  | ['\\'] => some []
  | c :: rest => (valueOctets rest).map (String.utf8EncodeChar c ++ ·)

/-- The arcs that a text of numerals and points spells. -/
def arcs? (text : List Char) : Option (List Nat) :=
  (text.splitOn '.').mapM Decimal.parse?

/-- The object identifier that the name of an attribute, or its arcs, stand for. -/
def oid? (key : List Char) : Option ObjectId :=
  match attributeNames.find? (·.1.toList = key.map Char.toLower) with
  | some (_, arcs) => some (.ofArcs arcs)
  | none => do ObjectId.ofContent? (ObjectId.ofArcs (← arcs? key)).content

/-- The value of an attribute: the hexadecimal digits of an element, or a text. -/
def value? : List Char → Option Element
  | '#' :: digits => do Element.decode (← Hex.decode digits)
  | text => (valueOctets text).map fun octets => ⟨tagUtf8String, octets⟩

/-- An attribute. -/
def attribute? (text : List Char) : Option NameAttribute :=
  match text.dropWhile (· ≠ '=') with
  | _ :: value => do some ⟨← oid? (text.takeWhile (· ≠ '=')), ← value? value⟩
  | [] => none

/-- A part of a name. -/
def part? (text : List Char) : Option (List NameAttribute) := do
  sortMembers NameAttribute.encode (← (pieces '+' text).mapM attribute?)

end NameText

/-- The name that a text spells. -/
def Name.ofText? (text : String) : Option Name := do
  let parts ← (NameText.pieces ',' text.toList).mapM NameText.part?
  Name.make? parts.reverse

end SecureElement.X509
