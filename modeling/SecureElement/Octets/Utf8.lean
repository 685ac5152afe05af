import SecureElement.Octets

/-!
UTF-8. One scanner reads an octet string as a list of characters, with `none` for each maximal
piece that begins no character. Two readers stand on it: `decode`, which wants no such piece, and
`decodeLossy`, which puts the replacement character in its place.
-/

namespace SecureElement.Utf8

/-- Where the scanner stands between two octets. -/
inductive State where
  /-- Between characters. -/
  | start
  /-- Inside a character: `owed` octets are still to come, the next of them from `low` to `high`;
  `value` is what the octets so far spell. -/
  | inside (owed : Nat) (low high : UInt8) (value : Nat)
  deriving DecidableEq, Repr

/-- What an octet does between two characters: the state after it and what it completes. -/
def first (b : UInt8) : State × List (Option Char) :=
  if b < 0x80 then (.start, [some (Char.ofNat b.toNat)])
  else if 0xC2 ≤ b ∧ b ≤ 0xDF then (.inside 1 0x80 0xBF (b.toNat % 32), [])
  else if b = 0xE0 then (.inside 2 0xA0 0xBF 0, [])
  else if b = 0xED then (.inside 2 0x80 0x9F 13, [])
  else if 0xE1 ≤ b ∧ b ≤ 0xEF then (.inside 2 0x80 0xBF (b.toNat % 16), [])
  else if b = 0xF0 then (.inside 3 0x90 0xBF 0, [])
  else if 0xF1 ≤ b ∧ b ≤ 0xF3 then (.inside 3 0x80 0xBF (b.toNat % 8), [])
  else if b = 0xF4 then (.inside 3 0x80 0x8F 4, [])
  else (.start, [none])

/-- What an octet does in any state. An octet that cannot continue a character ends the piece
before it and is then read as the first of the next. -/
def step : State → UInt8 → State × List (Option Char)
  | .start, b => first b
  | .inside owed low high value, b =>
      if low ≤ b ∧ b ≤ high then
        let value := value * 64 + b.toNat % 64
        match owed with
        | owed + 2 => (.inside (owed + 1) 0x80 0xBF value, [])
        | _ => (.start, [some (Char.ofNat value)])
      else
        let (state, out) := first b
        (state, none :: out)

/-- The characters from a state on; an unfinished one at the end is a malformed piece. -/
def scanFrom : State → Octets → List (Option Char)
  | .start, [] => []
  | .inside .., [] => [none]
  | state, b :: rest =>
      let (state, out) := step state b
      out ++ scanFrom state rest

/-- The characters of an octet string, `none` for each malformed piece. -/
def scan (bytes : Octets) : List (Option Char) :=
  scanFrom .start bytes

/-- All members of a list, if none is missing. -/
def allPresent {α : Type} : List (Option α) → Option (List α)
  | [] => some []
  | none :: _ => none
  | some x :: rest => (allPresent rest).map (x :: ·)

/-- The text of a well-formed octet string. -/
def decode (bytes : Octets) : Option String :=
  (allPresent (scan bytes)).map String.ofList

/-- The text of any octet string, with U+FFFD for each malformed piece. -/
def decodeLossy (bytes : Octets) : String :=
  String.ofList ((scan bytes).map fun c => c.getD (Char.ofNat 0xFFFD))

/-- The octets of a text. -/
def encode (text : String) : Octets :=
  text.toList.flatMap String.utf8EncodeChar

end SecureElement.Utf8
