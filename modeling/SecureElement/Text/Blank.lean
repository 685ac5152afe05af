/-!
White space in the sense of the Unicode property of that name, and texts trimmed of it.
-/

namespace SecureElement.Text

/-- The characters with the Unicode property `White_Space`. -/
def isBlank (c : Char) : Bool :=
  let n := c.toNat
  (0x09 ≤ n && n ≤ 0x0D) || n == 0x20 || n == 0x85 || n == 0xA0 || n == 0x1680 ||
    (0x2000 ≤ n && n ≤ 0x200A) || n == 0x2028 || n == 0x2029 || n == 0x202F || n == 0x205F ||
    n == 0x3000

/-- A list of characters without the white space at its start. -/
def trimStart (cs : List Char) : List Char :=
  cs.dropWhile isBlank

/-- A list of characters without the white space at its end. -/
def trimEnd (cs : List Char) : List Char :=
  (cs.reverse.dropWhile isBlank).reverse

/-- A list of characters without the white space around it. -/
def trimChars (cs : List Char) : List Char :=
  trimEnd (trimStart cs)

/-- A text without the white space around it. -/
def trim (text : String) : String :=
  String.ofList (trimChars text.toList)

/-- A text without the white space at its end. -/
def trimRight (text : String) : String :=
  String.ofList (trimEnd text.toList)

/-- The first run of characters that are not white space; empty in a blank text. -/
def firstWord (text : String) : String :=
  String.ofList ((trimStart text.toList).takeWhile fun c => !isBlank c)

end SecureElement.Text
