import SecureElement.Crypto.Hmac
import SecureElement.Crypto.Sha256

/-!
Keys derived from passwords at a cost in memory (scrypt): a table of blocks is filled by one pass of
a mixing function and read back at places that depend on the data.
-/

namespace SecureElement.Crypto.Scrypt

/-- The cost of a derivation: `rounds` in the table, in blocks of `128 * blockFactor` octets, for
each of `lanes` pieces. -/
structure Cost where
  rounds : Nat
  blockFactor : Nat
  lanes : Nat
  deriving DecidableEq, Repr

/-- Words of 32 bits. -/
abbrev Words := Array UInt32

/-- A word rotated to the left. -/
def rotateLeft (x n : UInt32) : UInt32 :=
  (x <<< n) ||| (x >>> (32 - n))

/-- Mixes the sum of two words, rotated, into a third. -/
def mixInto (x : Words) (target p q : Nat) (n : UInt32) : Words :=
  x.modify target (· ^^^ rotateLeft (x.getD p 0 + x.getD q 0) n)

/-- Mixes four words with each other. -/
def quarter (x : Words) (a b c d : Nat) : Words :=
  let x := mixInto x b a d 7
  let x := mixInto x c b a 9
  let x := mixInto x d c b 13
  mixInto x a d c 18

/-- Mixes the columns and then the rows of a square of sixteen words. -/
def doubleRound (x : Words) : Words :=
  let x := quarter x 0 4 8 12
  let x := quarter x 5 9 13 1
  let x := quarter x 10 14 2 6
  let x := quarter x 15 3 7 11
  let x := quarter x 0 1 2 3
  let x := quarter x 5 6 7 4
  let x := quarter x 10 11 8 9
  quarter x 15 12 13 14

/-- Eight rounds on a square of sixteen words, added to the square (Salsa20/8). -/
def salsa (x : Words) : Words :=
  Array.zipWith (· + ·) x (doubleRound (doubleRound (doubleRound (doubleRound x))))

/-- Words combined position by position with exclusive or. -/
def xor (x y : Words) : Words :=
  Array.zipWith (· ^^^ ·) x y

/-- The squares that come out when each square of a block is mixed with the result for the one
before it. -/
def mixSquares (last : Words) : List Words → List Words
  | [] => []
  | x :: rest =>
      let mixed := salsa (xor last x)
      mixed :: mixSquares mixed rest

/-- The members of a list at even places. -/
def evens {α : Type} : List α → List α
  | [] => []
  | [x] => [x]
  | x :: _ :: rest => x :: evens rest

/-- The mixing of a block: the squares that come out at even places, then those at odd places. -/
def mixBlock (block : List Words) : List Words :=
  let mixed := mixSquares (block.getLastD #[]) block
  evens mixed ++ evens mixed.tail

/-- The table of `count` blocks, each mixed from the one before it, and the block after the last. -/
def fill : (count : Nat) → (table : Array (List Words)) → List Words →
    Array (List Words) × List Words
  | 0, table, x => (table, x)
  | count + 1, table, x => fill count (table.push x) (mixBlock x)

/-- The number that a block names, in the first two words of its last square. -/
def index (block : List Words) : Nat :=
  let last := block.getLastD #[]
  (last.getD 0 0).toNat + (last.getD 1 0).toNat * 0x100000000

/-- A block mixed `count` times with the blocks of a table that it names. -/
def readBack (table : Array (List Words)) : (count : Nat) → List Words → List Words
  | 0, x => x
  | count + 1, x =>
      let other := table.getD (index x % table.size) []
      readBack table count (mixBlock (List.zipWith xor x other))

/-- The words of an octet string, least significant octet first. -/
def words (bytes : Octets) : List UInt32 :=
  (bytes.chunks 4).map fun w => UInt32.ofNat (Octets.toNat w.reverse)

/-- The octets of a word, least significant first. -/
def octets (w : UInt32) : Octets :=
  (Octets.ofNat 4 w.toNat).reverse

/-- The costly mixing of one piece. -/
def mixPiece (rounds : Nat) (piece : Octets) : Octets :=
  let squares := (piece.chunks 64).map fun s => (words s).toArray
  let (table, x) := fill rounds #[] squares
  (readBack table rounds x).flatMap fun square => square.toList.flatMap octets

/-- A key of `size` octets from a password. -/
def derive (password salt : Octets) (cost : Cost) (size : Nat) : Octets :=
  let pieceSize := 128 * cost.blockFactor
  let pieces := Pbkdf2.derive sha256 password salt 1 (cost.lanes * pieceSize)
  let mixed := (pieces.chunks pieceSize).flatMap (mixPiece cost.rounds)
  Pbkdf2.derive sha256 password mixed 1 size

end SecureElement.Crypto.Scrypt
