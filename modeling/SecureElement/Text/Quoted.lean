import SecureElement.Octets.Hex
import SecureElement.Text.Unprintable

/-!
Quoted texts for messages: between double quotes, with a backslash before a quote or a backslash,
short names for the common controls and the code point of everything else that does not print.
-/

namespace SecureElement.Text

/-- The lower-case hexadecimal numeral of a number, without leading zeros. -/
def hexNumeral (n : Nat) : List Char :=
  Nat.toDigits 16 n

/-- A character as it stands between the quotes. -/
def quotedChar (c : Char) : List Char :=
  if c = '\x00' then ['\\', '0']
  else if c = '\t' then ['\\', 't']
  else if c = '\r' then ['\\', 'r']
  else if c = '\n' then ['\\', 'n']
  else if c = '"' then ['\\', '"']
  else if c = '\\' then ['\\', '\\']
  else if isUnprintable c then ['\\', 'u', '\x7b'] ++ hexNumeral c.toNat ++ ['\x7d']
  else [c]

/-- A text between double quotes, fit for one line of a message. -/
def quoted (text : String) : String :=
  String.ofList ('"' :: text.toList.flatMap quotedChar ++ ['"'])

end SecureElement.Text
